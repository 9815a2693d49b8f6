import Daybook.Proofs.Grammar.Derivations

/-!
# The lines that trees show

A line of a file can be had in two ways: the places that its tokens lead to remember what is needed
of them, and the grammar makes a tree. A tree shows a line if the two say the same, as far as
collecting asks: which tokens are first of their sort, what the amount, the cost and the price of a
posting are, and where the last token that is kept ends.

For each rule of a statement it is proved that its tokens lead to a place where a statement is
complete, and that its tree shows that statement. `follow_statement` puts them together.
-/
namespace Daybook.Grammar

/-! ## What a tree shows -/

/-- Tokens end with the end of the last one. -/
def StopsAt (tokens : List Token) (stop : Nat) : Prop :=
  ∃ last, tokens.getLast? = some last ∧ last.stop = stop

/-- The amount of a posting is missing, or it has this currency at its end. -/
def ShowsAmount (amount : Node) : Option Token → Prop
  | none => amount = .gap
  | some currency => ∃ parts, amount = .tree .amount parts ∧
      firstOf .currency (tokensOf parts) = some currency ∧ StopsAt (tokensOf parts) currency.stop

/-- The tree of a posting shows a posting line. -/
structure ShowsPosting (rule : Rule) (parts : List Node) (line : PostingLine) : Prop where
  first : (tokensOf parts).head? = some line.first
  account : firstOf .account (tokensOf parts) = some line.account
  ends : StopsAt (tokensOf parts) line.stop
  details : ∃ amount cost price, detailsOf rule parts = .ok (amount, cost, price) ∧
    ShowsAmount amount line.currency ∧ cost.isThere = line.hasCost ∧ price.isThere = line.hasPrice

/-- The tree of a directive shows a statement. -/
inductive ShowsDirective : Node → Statement → Prop where
  | transaction (heading : Heading) {marks : Node}
      (tags : tagsOf marks = .ok ((heading.marks.filter fun token => token.terminal = .tag).map
        fun token => token.text.drop 1))
      (ends : StopsAt (heading.date :: tokensOf [.ofOption heading.flag, .ofOption heading.payee,
        .ofOption heading.narration, marks]) heading.stop) :
      ShowsDirective (.tree .dated [.tree .transaction [.token heading.date,
        .ofOption heading.flag, .ofOption heading.payee, .ofOption heading.narration, marks]])
        (.transaction heading)
  | opening {date account : Token} {currencies : List Token} {stop : Nat} {parts : List Node}
      (dated : firstOf .date (tokensOf parts) = some date)
      (named : firstOf .account (tokensOf parts) = some account)
      (listed : ((tokensOf parts).filter fun token => token.terminal = .currency) = currencies)
      (ends : StopsAt (tokensOf parts) stop) :
      ShowsDirective (.tree .dated [.tree .opening parts]) (.opening date account currencies stop)
  | closing {date account : Token} (dated : date.terminal = .date)
      (named : account.terminal = .account) :
      ShowsDirective (.tree .dated [.tree .closing [.token date, .token account]])
        (.closing date account)
  | otherDated {rule : Rule} (other : rule ≠ .transaction ∧ rule ≠ .opening ∧ rule ≠ .closing)
      (parts : List Node) : ShowsDirective (.tree .dated [.tree rule parts]) .otherDated
  | posting {rule : Rule} {parts : List Node} {line : PostingLine}
      (shows : ShowsPosting rule parts line) :
      ShowsDirective (.tree .posting [.tree rule parts]) (.posting line)
  | metadata {key : Token} {stop : Nat} {parts : List Node}
      (ends : StopsAt (key :: tokensOf parts) stop) :
      ShowsDirective (.tree .metadata (.token key :: parts)) (.metadata key stop)
  | inclusion {path : Token} (quoted : path.terminal = .quotedText) :
      ShowsDirective (.tree .undated [.tree .inclusion [.token path]]) (.inclusion path)
  | otherUndated {rule : Rule} {parts : List Node}
      (other : Node.find .inclusion (.tree rule parts) = []) :
      ShowsDirective (.tree .undated [.tree rule parts]) .otherUndated

/-- The tree of a statement shows a line. -/
inductive Shows : Node → Line → Prop where
  | remark (token : Token) : Shows (.tree .statement [.token token]) { statement := .remark }
  | directive {node : Node} {statement : Statement} {comment : Option Token}
      (shows : ShowsDirective node statement)
      (sort : ∀ token ∈ comment, token.terminal = .comment) :
      Shows (.tree .statement [node, .ofOption comment]) { statement, comment }

/-- The trees of a file show these lines. A statement that is missing shows none. -/
inductive ShowsAll : List Node → List Line → Prop where
  | nil : ShowsAll [] []
  | gap {nodes : List Node} {lines : List Line} (further : ShowsAll nodes lines) :
      ShowsAll (.gap :: nodes) lines
  | cons {node : Node} {line : Line} {nodes : List Node} {lines : List Line}
      (shows : Shows node line) (further : ShowsAll nodes lines) :
      ShowsAll (node :: nodes) (line :: lines)

/-- A statement is complete at a place, and no comment has been read after it. -/
def Completes (place : Place) (statement : Statement) : Prop :=
  place.statement? = some statement ∧ place.lines? = some [{ statement }]

/-- Where the statement of a directive is complete, something may still follow on the line. -/
theorem Completes.expected_ne {place : Place} {statement : Statement} {node : Node}
    (completes : Completes place statement) (shows : ShowsDirective node statement) :
    place.expected ≠ .lineEnd := by
  obtain ⟨complete, alone⟩ := completes
  intro ended
  cases place with
  | remarked =>
    cases complete
    cases shows
  | commented => cases alone
  | _ => cases ended

/-- A sequence of tokens leads from the beginning of a line to a complete statement, which a tree
shows. -/
def Leads (tokens : List Token) (node : Node) : Prop :=
  ∃ statement place, Place.lineStart.follow tokens = some place ∧ Completes place statement ∧
    ShowsDirective node statement

/-! ## Tokens in their order -/

/-- Tokens stop where the last of them does. -/
theorem StopsAt.concat (tokens : List Token) (token : Token) :
    StopsAt (tokens ++ [token]) token.stop :=
  ⟨token, by simp, rfl⟩

/-- What stands before does not matter. -/
theorem StopsAt.prepend {tokens : List Token} {stop : Nat} (ends : StopsAt tokens stop)
    (front : List Token) : StopsAt (front ++ tokens) stop := by
  obtain ⟨last, found, same⟩ := ends
  exact ⟨last, by simp [List.getLast?_append, found], same⟩

/-- Further tokens move the end as they move the end of a posting line. -/
theorem StopsAt.through {front : List Token} {stop : Nat} (ends : StopsAt front stop)
    (line : PostingLine) (same : line.stop = stop) (back : List Token) :
    StopsAt (front ++ back) (line.through back).stop := by
  rcases List.eq_nil_or_concat back with rfl | ⟨inner, token, rfl⟩
  · rwa [List.append_nil, PostingLine.through_nil, same]
  · rw [List.concat_eq_append, PostingLine.through_concat, ← List.append_assoc]
    exact StopsAt.concat _ token

/-- The first token of a sort is sought behind those of other sorts. -/
theorem firstOf_append {terminal : Terminal} {front back : List Token}
    (others : ∀ token ∈ front, token.terminal ≠ terminal) :
    firstOf terminal (front ++ back) = firstOf terminal back := by
  rw [firstOf, List.find?_append, List.find?_eq_none.mpr fun token member => by
    simpa using others token member]
  rfl

/-- The first token is the first of its own sort. -/
theorem firstOf_cons_self {terminal : Terminal} {token : Token} (own : token.terminal = terminal)
    (tokens : List Token) : firstOf terminal (token :: tokens) = some token :=
  List.find?_cons_of_pos (by simpa using own)

/-! ## Postings -/

section Posting

variable {tokens : List Token} {nodes : List Node}

/-- The account of a posting and the flag before it. -/
theorem follow_owner {back : List Token} {others : List Node}
    (marked : DerivesSome (Part.kept .flag).orGap tokens nodes)
    (owned : DerivesSome [[.kept .account]] back others) :
    ∃ flag account, nodes ++ others = [.ofOption flag, .token account] ∧
      account.terminal = .account ∧ (∀ token ∈ flag, token.terminal = .flag) ∧
      Place.lineStart.follow (tokens ++ back) =
        some (.posted { first := flag.getD account, account, stop := account.stop }) := by
  obtain ⟨⟨_, start, text⟩, rfl, rfl, rfl⟩ :=
    derives_token_iff.mp (derivesSome_singleton_iff.mp owned)
  obtain ⟨flag, sort, rfl, rfl⟩ := derivesSome_optional_iff.mp marked
  refine ⟨flag, _, rfl, rfl, sort, ?_⟩
  cases flag with
  | none => rfl
  | some flag =>
    obtain ⟨_, other, mark⟩ := flag
    cases sort _ rfl
    rfl

/-- What a posting begins with. -/
theorem owner_shown {flag : Option Token} {account : Token} (named : account.terminal = .account)
    (marked : ∀ token ∈ flag, token.terminal = .flag) (more : List Token) :
    (tokensOf [.ofOption flag, .token account] ++ more).head? = some (flag.getD account) ∧
      firstOf .account (tokensOf [.ofOption flag, .token account] ++ more) = some account ∧
      StopsAt (tokensOf [.ofOption flag, .token account]) account.stop := by
  cases flag with
  | none => exact ⟨rfl, firstOf_cons_self named _, StopsAt.concat [] account⟩
  | some flag =>
    refine ⟨rfl, ?_, StopsAt.concat [flag] account⟩
    have other : ∀ token ∈ [flag], token.terminal ≠ .account := by
      simp [marked flag rfl]
    exact (firstOf_append other).trans (firstOf_cons_self named _)

/-- An amount behind the account of a posting. -/
theorem follow_postingAmount (line : PostingLine) (derives : Derives [.rule .amount] tokens nodes) :
    ∃ amount currency, nodes = [amount] ∧ ShowsAmount amount (some currency) ∧
      (Place.posted line).follow tokens = some (.afterAmount (.posting
        { line.through (tokensOf nodes) with currency := some currency })) := by
  have admits : Admits (.posted line) (.posting line) := by
    rintro ⟨_, start, text⟩ (same | same | same) <;> cases same <;> rfl
  obtain ⟨parts, numbers, currency, rfl, kept, sort, numeral, run⟩ := follow_amount admits derives
  refine ⟨_, currency, rfl, ⟨parts, rfl, ?_, ?_⟩, ?_⟩
  · rw [kept, firstOf_append fun token member same => ?_, firstOf_cons_self sort]
    have plain := numeral token member
    simp [isNumeral, same] at plain
  · rw [kept]
    exact StopsAt.concat numbers currency
  · rw [run, tokensOf_cons, tokensOf_nil, List.append_nil, Node.tokens_tree, kept,
      Purpose.through_posting, PostingLine.through_append]
    rfl

/-- A place where a posting may be complete or have a price. -/
def Priced (place : Place) (line : PostingLine) : Prop :=
  (∀ token : Token, token.terminal = .atMark ∨ token.terminal = .doubleAt →
    place.pass token = Place.intoPrice line token) ∧ Completes place (.posting line)

/-- A cost that may be missing. -/
theorem follow_optionalCost (line : PostingLine)
    (derives : DerivesSome (Part.rule .cost).orGap tokens nodes) :
    ∃ cost place, nodes = [cost] ∧ (Place.afterAmount (.posting line)).follow tokens = some place ∧
      Priced place ({ line with
        hasCost := line.hasCost || cost.isThere }.through (tokensOf nodes)) := by
  have priced (line : PostingLine) : Priced (.afterAmount (.posting line)) line ∧
      Priced (.price line) line := by
    refine ⟨⟨?_, rfl, rfl⟩, ?_, rfl, rfl⟩ <;>
    · rintro ⟨_, start, text⟩ (same | same) <;> cases same <;> rfl
  rcases derivesSome_orGap_iff.mp derives with cost | ⟨rfl, rfl⟩
  · obtain ⟨⟨node, rfl, there⟩, run⟩ := follow_cost line cost
    refine ⟨node, _, rfl, run, ?_⟩
    rw [there, Bool.or_true]
    exact (priced _).2
  · refine ⟨.gap, _, rfl, rfl, ?_⟩
    rw [Node.isThere, Bool.or_false]
    exact (priced line).1

/-- A price that may be missing. -/
theorem follow_optionalPrice {place : Place} {line : PostingLine} (priced : Priced place line)
    (derives : DerivesSome (Part.rule .postingPrice).orGap tokens nodes) :
    ∃ price next, nodes = [price] ∧ place.follow tokens = some next ∧ Completes next (.posting
      ({ line with hasPrice := line.hasPrice || price.isThere }.through (tokensOf nodes))) := by
  rcases derivesSome_orGap_iff.mp derives with price | ⟨rfl, rfl⟩
  · obtain ⟨⟨node, rfl, there⟩, run⟩ := follow_price priced.1 price
    refine ⟨node, _, rfl, run, ?_⟩
    rw [there, Bool.or_true]
    exact ⟨rfl, rfl⟩
  · refine ⟨.gap, place, rfl, rfl, ?_⟩
    rw [Node.isThere, Bool.or_false]
    exact priced.2

/-- What follows the account of a posting with an amount. The amount, the cost and the price are
followed one after another, each from the place where the former one ended. -/
theorem follow_details (line : PostingLine) (free : line.hasCost = false ∧ line.hasPrice = false)
    {costs prices : List Token} {below above : List Node}
    (hasAmount : DerivesSome [[.rule .amount]] tokens nodes)
    (mayCost : DerivesSome (Part.rule .cost).orGap costs below)
    (mayPrice : DerivesSome (Part.rule .postingPrice).orGap prices above) :
    ∃ amount cost price final place, nodes ++ (below ++ above) = [amount, cost, price] ∧
      final.first = line.first ∧ final.account = line.account ∧
      ShowsAmount amount final.currency ∧ cost.isThere = final.hasCost ∧
      price.isThere = final.hasPrice ∧
      (∀ front, StopsAt front line.stop →
        StopsAt (front ++ tokensOf [amount, cost, price]) final.stop) ∧
      (Place.posted line).follow (tokens ++ (costs ++ prices)) = some place ∧
      Completes place (.posting final) := by
  obtain ⟨amount, currency, rfl, shows, first⟩ :=
    follow_postingAmount line (derivesSome_singleton_iff.mp hasAmount)
  obtain ⟨cost, middle, rfl, second, priced⟩ := follow_optionalCost
    { line.through (tokensOf [amount]) with currency := some currency } mayCost
  obtain ⟨price, place, rfl, third, complete⟩ := follow_optionalPrice priced mayPrice
  refine ⟨amount, cost, price, _, place, rfl, ?_, ?_, ?_, ?_, ?_,
    fun front ends => ?_, ?_, complete⟩
  · simp only [PostingLine.through_first]
  · simp only [PostingLine.through_account]
  · simpa only [PostingLine.through_currency] using shows
  · simp only [PostingLine.through_hasCost, free.1, Bool.false_or]
  · simp only [PostingLine.through_hasPrice, free.2, Bool.false_or]
  · have parts : front ++ tokensOf [amount, cost, price] =
        front ++ tokensOf [amount] ++ tokensOf [cost] ++ tokensOf [price] := by simp
    rw [parts]
    have behindAmount := ends.through line rfl (tokensOf [amount])
    have behindCost := behindAmount.through
      { line.through (tokensOf [amount]) with
        currency := some currency
        hasCost := (line.through (tokensOf [amount])).hasCost || cost.isThere }
      rfl (tokensOf [cost])
    exact behindCost.through _ (by rfl) _
  · rw [Place.follow_append, first, Option.bind_some, Place.follow_append, second, Option.bind_some,
      third]

/-- A posting with an amount. The flag before the account may be missing, and the details behind it
are followed by themselves. -/
theorem follow_detailedPosting (derives : DerivesSome Rule.detailedPosting.shapes tokens nodes) :
    ∃ line place, ShowsPosting .detailedPosting nodes line ∧
      Place.lineStart.follow tokens = some place ∧ Completes place (.posting line) := by
  obtain ⟨_, _, _, _, marked, behindFlag, rfl, rfl⟩ := derivesSome_sections_iff.mp derives
  obtain ⟨_, _, _, _, owned, behindOwner, rfl, rfl⟩ := derivesSome_sections_iff.mp behindFlag
  obtain ⟨_, numbers, _, _, amount, behindAmount, rfl, rfl⟩ :=
    derivesSome_sections_iff.mp behindOwner
  obtain ⟨_, costs, _, _, cost, behindCost, rfl, rfl⟩ := derivesSome_sections_iff.mp behindAmount
  obtain ⟨_, prices, _, _, price, last, rfl, rfl⟩ := derivesSome_sections_iff.mp behindCost
  obtain ⟨rfl, rfl⟩ := derivesSome_sections_nil_iff.mp last
  obtain ⟨flag, account, owner, named, sort, opened⟩ := follow_owner marked owned
  obtain ⟨amount, cost, price, line, place, parts, first, own, shows, costs, prices, moves, run,
    complete⟩ := follow_details { first := flag.getD account, account, stop := account.stop }
    ⟨rfl, rfl⟩ amount cost price
  obtain ⟨begins, found, ends⟩ := owner_shown named sort (tokensOf [amount, cost, price])
  rw [List.append_nil, List.append_nil, ← List.append_assoc, owner, parts]
  refine ⟨line, place, ⟨?_, ?_, ?_, amount, cost, price, rfl, shows, costs, prices⟩, ?_, complete⟩
  · rw [tokensOf_append, begins, first]
  · rw [tokensOf_append, found, own]
  · rw [tokensOf_append]
    exact moves _ ends
  · rw [← List.append_assoc, Place.follow_append, opened, Option.bind_some, run]

/-- A posting without an amount. -/
theorem follow_simplePosting (derives : DerivesSome Rule.simplePosting.shapes tokens nodes) :
    ∃ line place, ShowsPosting .simplePosting nodes line ∧
      Place.lineStart.follow tokens = some place ∧ Completes place (.posting line) := by
  obtain ⟨_, _, _, _, marked, behindFlag, rfl, rfl⟩ := derivesSome_sections_iff.mp derives
  obtain ⟨_, _, _, _, owned, last, rfl, rfl⟩ := derivesSome_sections_iff.mp behindFlag
  obtain ⟨rfl, rfl⟩ := derivesSome_sections_nil_iff.mp last
  obtain ⟨flag, account, owner, named, sort, first⟩ := follow_owner marked owned
  obtain ⟨begins, found, ends⟩ := owner_shown named sort []
  rw [List.append_nil, List.append_nil, owner]
  rw [List.append_nil] at begins found
  exact ⟨{ first := flag.getD account, account, stop := account.stop }, _,
    ⟨begins, found, ends, .gap, .gap, .gap, rfl, rfl, rfl, rfl⟩, first, rfl, rfl⟩

end Posting

/-! ## Transactions -/

section Transaction

variable {tokens : List Token} {nodes : List Node}

/-- A place where tags and links may follow, or a transaction may be complete. -/
def Marked (place : Place) (heading : Heading) : Prop :=
  (∀ token : Token, token.terminal = .tag ∨ token.terminal = .link →
    place.pass token = Place.intoMarks heading token) ∧ Completes place (.transaction heading)

/-- A tag or a link is one token. -/
theorem mark_single (derives : Derives [.rule .mark] tokens nodes) : ∃ token : Token,
    (token.terminal = .tag ∨ token.terminal = .link) ∧
    tokens = [token] ∧ nodes = [.token token] := by
  obtain ⟨parts, shaped, rfl⟩ := derives_only_iff.mp derives
  rcases derivesSome_cons_iff.mp shaped with tag | link
  · obtain ⟨token, own, rfl, rfl⟩ := derives_token_iff.mp tag
    exact ⟨token, Or.inl own, rfl, rfl⟩
  · obtain ⟨token, own, rfl, rfl⟩ := derives_token_iff.mp (derivesSome_singleton_iff.mp link)
    exact ⟨token, Or.inr own, rfl, rfl⟩

/-- A tag or a link leads to a place where more of them may follow. -/
theorem Marked.step {place : Place} {heading : Heading} (marked : Marked place heading)
    {token : Token} (sort : token.terminal = .tag ∨ token.terminal = .link) :
    ∃ next, place.pass token = some next ∧
      Marked next { heading with marks := heading.marks ++ [token], stop := token.stop } := by
  refine ⟨.marks _, ?_, ?_, rfl, rfl⟩
  · rw [marked.1 token sort, Place.intoMarks, if_pos sort]
  · rintro ⟨_, start, text⟩ (same | same) <;> cases same <;> rfl

/-- Tags and links. The rule repeats a tag or a link, and each is added to the marks of the
heading. -/
theorem follow_markList (derives : Derives [.rule .markList] tokens nodes) :
    nodes = tokens.map Node.token ∧ ∀ place heading, Marked place heading →
      ∃ next stop, place.follow tokens = some next ∧ StopsAt tokens stop ∧
        Marked next { heading with marks := heading.marks ++ tokens, stop } := by
  refine derives.repeated (fun tokens nodes => nodes = tokens.map Node.token ∧
    ∀ place heading, Marked place heading → ∃ next stop, place.follow tokens = some next ∧
      StopsAt tokens stop ∧ Marked next { heading with marks := heading.marks ++ tokens, stop })
    rfl rfl (fun mark => ?_) (fun former mark => ?_)
  · obtain ⟨token, sort, rfl, rfl⟩ := mark_single mark
    refine ⟨rfl, fun place heading marked => ?_⟩
    obtain ⟨next, leads, marked⟩ := marked.step sort
    exact ⟨next, _, by rw [Place.follow_singleton, leads], StopsAt.concat [] token, marked⟩
  · obtain ⟨rfl, run⟩ := former
    obtain ⟨token, sort, rfl, rfl⟩ := mark_single mark
    refine ⟨by simp, fun place heading marked => ?_⟩
    obtain ⟨middle, stop, runs, _, marked⟩ := run place heading marked
    obtain ⟨next, leads, marked⟩ := marked.step sort
    refine ⟨next, _, ?_, StopsAt.concat _ token, ?_⟩
    · rw [Place.follow_append, runs, Option.bind_some, Place.follow_singleton, leads]
    · rwa [← List.append_assoc]

/-- The tags among tags and links. -/
theorem tags_map (tokens : List Token) : ((tokens.map Node.token).filterMap fun
      | .token token => if token.terminal = .tag then some (token.text.drop 1) else none
      | _ => none) = (tokens.filter fun token => token.terminal = .tag).map
        fun token => token.text.drop 1 := by
  induction tokens with
  | nil => rfl
  | cons token tokens ih =>
    by_cases tag : token.terminal = .tag <;>
      simp only [List.map_cons, List.filterMap_cons, List.filter_cons, tag, if_true, if_false,
        decide_true, decide_false, Bool.false_eq_true, ih]

/-- Tags and links that may be missing. -/
theorem follow_marks {place : Place} {heading : Heading} (marked : Marked place heading)
    (fresh : heading.marks = []) (derives : DerivesSome (Part.rule .marks).orGap tokens nodes) :
    ∃ marks next own stop, nodes = [marks] ∧ place.follow tokens = some next ∧
      tagsOf marks = .ok ((own.filter fun token => token.terminal = .tag).map
        fun token => token.text.drop 1) ∧
      (∀ front, StopsAt front heading.stop → StopsAt (front ++ tokensOf [marks]) stop) ∧
      Completes next (.transaction { heading with marks := own, stop }) := by
  rcases derivesSome_orGap_iff.mp derives with derives | ⟨rfl, rfl⟩
  · obtain ⟨parts, shaped, rfl⟩ := derives_only_iff.mp derives
    obtain ⟨rfl, run⟩ := follow_markList (derivesSome_singleton_iff.mp shaped)
    obtain ⟨next, stop, runs, ends, marked⟩ := run place heading marked
    rw [fresh, List.nil_append] at marked
    refine ⟨_, next, tokens, stop, rfl, runs, ?_, fun front _ => ?_, marked.2⟩
    · exact congrArg Except.ok (tags_map tokens)
    · simpa using ends.prepend front
  · refine ⟨.gap, place, [], heading.stop, rfl, rfl, rfl, fun front ends => by simpa using ends, ?_⟩
    have same : { heading with marks := [], stop := heading.stop } = heading := by rw [← fresh]
    rw [same]
    exact marked.2

/-- A place where the texts of a transaction may follow, or it may be complete. -/
def Headed (place : Place) (heading : Heading) : Prop :=
  (∀ token : Token, token.terminal = .quotedText ∨ token.terminal = .tag ∨ token.terminal = .link →
    place.pass token = Place.intoTexts heading token) ∧ Completes place (.transaction heading)

/-- The date of a transaction and its flag. The flag is a word, a mark, or missing, and leads to the
place of the texts in the first two cases. -/
theorem follow_dated {back : List Token} {others : List Node}
    (dated : DerivesSome [[.kept .date]] tokens nodes)
    (flagged : DerivesSome [[.kept .txnWord], [.kept .flag], [.gap]] back others) :
    ∃ date flag place stop, nodes = [.token date] ∧ others = [.ofOption flag] ∧
      Place.lineStart.follow (tokens ++ back) = some place ∧
      StopsAt (date :: tokensOf [.ofOption flag]) stop ∧ Headed place { date, flag, stop } := by
  obtain ⟨⟨_, start, text⟩, rfl, rfl, rfl⟩ :=
    derives_token_iff.mp (derivesSome_singleton_iff.mp dated)
  have present {flag : Token} (sort : flag.terminal = .txnWord ∨ flag.terminal = .flag) :
      (Place.dated ⟨.date, start, text⟩).pass flag = some (.texts
        { date := ⟨.date, start, text⟩, flag := some flag, stop := flag.stop }) ∧
      Headed (.texts { date := ⟨.date, start, text⟩, flag := some flag, stop := flag.stop })
        { date := ⟨.date, start, text⟩, flag := some flag, stop := flag.stop } := by
    refine ⟨?_, ?_, rfl, rfl⟩
    · obtain ⟨_, other, mark⟩ := flag
      rcases sort with same | same <;> cases same <;> rfl
    · rintro ⟨_, other, mark⟩ (same | same | same) <;> cases same <;> rfl
  have marked {terminal : Terminal} (sort : terminal = .txnWord ∨ terminal = .flag)
      (kept : Derives [.kept terminal] back others) : ∃ date flag place stop,
        [Node.token ⟨.date, start, text⟩] = [.token date] ∧ others = [.ofOption flag] ∧
        Place.lineStart.follow ([⟨.date, start, text⟩] ++ back) = some place ∧
        StopsAt (date :: tokensOf [.ofOption flag]) stop ∧ Headed place { date, flag, stop } := by
    obtain ⟨flag, own, rfl, rfl⟩ := derives_token_iff.mp kept
    obtain ⟨leads, headed⟩ := present (own ▸ sort)
    refine ⟨_, some flag, _, flag.stop, rfl, rfl, ?_, StopsAt.concat [_] flag, headed⟩
    change (Place.dated ⟨.date, start, text⟩).follow [flag] = _
    rw [Place.follow_singleton, leads]
  rcases derivesSome_cons_iff.mp flagged with word | flagged
  · exact marked (Or.inl rfl) word
  rcases derivesSome_cons_iff.mp flagged with sign | missing
  · exact marked (Or.inr rfl) sign
  · obtain ⟨_, rfl, last⟩ := derives_gap_iff.mp (derivesSome_singleton_iff.mp missing)
    obtain ⟨rfl, rfl⟩ := derives_nil_iff.mp last
    refine ⟨_, none, .dated ⟨.date, start, text⟩, _, rfl, rfl, rfl, StopsAt.concat [] _,
      ?_, rfl, rfl⟩
    rintro ⟨_, other, mark⟩ (same | same | same) <;> cases same <;> rfl

/-- The texts of a transaction. A single one is the narration. -/
theorem follow_texts {place : Place} {date : Token} {flag : Option Token} {stop : Nat}
    (headed : Headed place { date, flag, stop })
    (derives : DerivesSome [[.kept .quotedText, .kept .quotedText], [.gap, .kept .quotedText],
      [.gap, .gap]] tokens nodes) : ∃ payee narration next further,
      nodes = [.ofOption payee, .ofOption narration] ∧ place.follow tokens = some next ∧
      (∀ front, StopsAt front stop →
        StopsAt (front ++ tokensOf [.ofOption payee, .ofOption narration]) further) ∧
      Marked next { date, flag, payee, narration, stop := further } := by
  have first {token : Token} (quoted : token.terminal = .quotedText) : place.pass token =
      some (.texts { date, flag, narration := some token, stop := token.stop }) := by
    rw [headed.1 token (Or.inl quoted), Place.intoTexts, if_pos quoted]
  rcases derivesSome_cons_iff.mp derives with two | derives
  · obtain ⟨payee, _, _, quoted, rfl, rfl, further⟩ := derives_kept_iff.mp two
    obtain ⟨⟨_, start, text⟩, rfl, rfl, rfl⟩ := derives_token_iff.mp further
    refine ⟨some payee, some ⟨.quotedText, start, text⟩, .marks _, _, rfl, ?_, fun front _ =>
      (StopsAt.concat [payee] _).prepend front, ?_, rfl, rfl⟩
    · rw [Place.follow_cons, first quoted]
      rfl
    · rintro ⟨_, other, mark⟩ (same | same) <;> cases same <;> rfl
  rcases derivesSome_cons_iff.mp derives with one | none
  · obtain ⟨_, rfl, further⟩ := derives_gap_iff.mp one
    obtain ⟨narration, quoted, rfl, rfl⟩ := derives_token_iff.mp further
    refine ⟨none, some narration, .texts
      { date, flag, narration := some narration, stop := narration.stop }, _, rfl, ?_,
      fun front _ => (StopsAt.concat [] narration).prepend front, ?_, rfl, rfl⟩
    · rw [Place.follow_singleton, first quoted]
    · rintro ⟨_, other, mark⟩ (same | same) <;> cases same <;> rfl
  · obtain ⟨_, rfl, further⟩ := derives_gap_iff.mp (derivesSome_singleton_iff.mp none)
    obtain ⟨_, rfl, last⟩ := derives_gap_iff.mp further
    obtain ⟨rfl, rfl⟩ := derives_nil_iff.mp last
    refine ⟨.none, .none, place, stop, rfl, rfl, fun front ends => by simpa using ends,
      ?_, headed.2⟩
    intro token sort
    rw [headed.1 token (Or.inr sort), Place.intoTexts, if_neg]
    rcases sort with same | same <;> simp [same]

/-- A transaction. -/
theorem follow_transaction (derives : DerivesSome Rule.transaction.shapes tokens nodes) :
    Leads tokens (.tree .dated [.tree .transaction nodes]) := by
  obtain ⟨_, _, _, _, hasDate, behindDate, rfl, rfl⟩ := derivesSome_sections_iff.mp derives
  obtain ⟨_, _, _, _, mayFlag, behindFlag, rfl, rfl⟩ := derivesSome_sections_iff.mp behindDate
  obtain ⟨_, _, _, _, mayTexts, behindTexts, rfl, rfl⟩ := derivesSome_sections_iff.mp behindFlag
  obtain ⟨_, _, _, _, mayMarks, last, rfl, rfl⟩ := derivesSome_sections_iff.mp behindTexts
  obtain ⟨rfl, rfl⟩ := derivesSome_sections_nil_iff.mp last
  obtain ⟨date, flag, _, _, rfl, rfl, first, ends, headed⟩ := follow_dated hasDate mayFlag
  obtain ⟨payee, narration, _, _, rfl, second, moves, marked⟩ := follow_texts headed mayTexts
  obtain ⟨marks, place, own, stop, rfl, third, tags, further, complete⟩ :=
    follow_marks marked rfl mayMarks
  refine ⟨_, place, ?_, complete, ShowsDirective.transaction
    { date, flag, payee, narration, marks := own, stop } tags ?_⟩
  · rw [List.append_nil, ← List.append_assoc, Place.follow_append, first, Option.bind_some,
      Place.follow_append, second, Option.bind_some, third]
  · have all := further _ (moves _ ends)
    simpa using all

end Transaction

/-! ## Openings -/

section Opening

variable {tokens : List Token} {nodes : List Node}

/-- Currencies behind others. The rule repeats a currency behind a comma, so the currencies before
it are general in the statement. -/
theorem follow_moreCurrencies (derives : Derives [.rule .moreCurrencies] tokens nodes) :
    ∃ currencies, nodes = currencies.map Node.token ∧
      (∀ token ∈ currencies, token.terminal = .currency) ∧
      ∀ date owner before stop, ∃ further, StopsAt currencies further ∧
        (Place.nextCurrency date owner before stop).follow tokens =
          some (.nextCurrency date owner (before ++ currencies) further) := by
  have one {tokens : List Token} {nodes : List Node}
      (derives : Derives [.dropped .comma, .kept .currency] tokens nodes) :
      ∃ currency, nodes = [.token currency] ∧ currency.terminal = .currency ∧
        ∀ date owner before stop, (Place.nextCurrency date owner before stop).follow tokens =
          some (.nextCurrency date owner (before ++ [currency]) currency.stop) := by
    obtain ⟨⟨_, start, text⟩, _, rfl, rfl, further⟩ := derives_dropped_iff.mp derives
    obtain ⟨⟨_, other, name⟩, rfl, rfl, rfl⟩ := derives_token_iff.mp further
    exact ⟨_, rfl, rfl, fun _ _ _ _ => rfl⟩
  refine derives.repeated (fun tokens nodes => ∃ currencies, nodes = currencies.map Node.token ∧
    (∀ token ∈ currencies, token.terminal = .currency) ∧
    ∀ date owner before stop, ∃ further, StopsAt currencies further ∧
      (Place.nextCurrency date owner before stop).follow tokens =
        some (.nextCurrency date owner (before ++ currencies) further))
    rfl rfl (fun only => ?_) (fun former last => ?_)
  · obtain ⟨currency, rfl, sort, run⟩ := one only
    exact ⟨[currency], rfl, by simpa using sort, fun date owner before stop =>
      ⟨_, StopsAt.concat [] currency, run date owner before stop⟩⟩
  · obtain ⟨currencies, rfl, sorts, run⟩ := former
    obtain ⟨currency, rfl, sort, leads⟩ := one last
    refine ⟨currencies ++ [currency], by simp, ?_, fun date owner before stop => ?_⟩
    · simpa [or_imp, forall_and, sort] using sorts
    · obtain ⟨middle, _, runs⟩ := run date owner before stop
      refine ⟨_, StopsAt.concat _ currency, ?_⟩
      rw [Place.follow_append, runs, Option.bind_some, leads, List.append_assoc]

/-- A place where an opening with these currencies is complete or the booking may follow. -/
def Booked (place : Place) (date owner : Token) (currencies : List Token) (stop : Nat) : Prop :=
  (∀ token : Token, token.terminal = .quotedText →
    place.pass token = some (.ended (.opening date owner currencies token.stop))) ∧
  Completes place (.opening date owner currencies stop)

/-- Currencies that may be missing. -/
theorem follow_currencies (date owner : Token)
    (derives : DerivesSome (Part.rule .currencies).orGap tokens nodes) :
    ∃ place stop, (Place.firstCurrency date owner).follow tokens = some place ∧
      (∀ token ∈ tokensOf nodes, token.terminal = .currency) ∧
      (∀ front, StopsAt front owner.stop → StopsAt (front ++ tokensOf nodes) stop) ∧
      Booked place date owner (tokensOf nodes) stop := by
  rcases derivesSome_orGap_iff.mp derives with derives | ⟨rfl, rfl⟩
  · obtain ⟨parts, shaped, rfl⟩ := derives_only_iff.mp derives
    rw [Rule.tokensOf_build]
    have booked (currencies : List Token) (stop : Nat) :
        Booked (.nextCurrency date owner currencies stop) date owner currencies stop := by
      refine ⟨?_, rfl, rfl⟩
      rintro ⟨_, start, text⟩ same
      cases same
      rfl
    rcases derivesSome_cons_iff.mp shaped with several | one
    · obtain ⟨⟨_, start, text⟩, _, _, rfl, rfl, rfl, more⟩ := derives_kept_iff.mp several
      obtain ⟨others, rfl, sorts, run⟩ := follow_moreCurrencies more
      obtain ⟨stop, ends, runs⟩ := run date owner [⟨.currency, start, text⟩] (start + text.length)
      refine ⟨_, stop, runs, ?_, fun front _ => ?_, ?_⟩
      · simpa using sorts
      · simpa using (ends.prepend [⟨.currency, start, text⟩]).prepend front
      · simpa using booked (⟨.currency, start, text⟩ :: others) stop
    · obtain ⟨⟨_, start, text⟩, rfl, rfl, rfl⟩ :=
        derives_token_iff.mp (derivesSome_singleton_iff.mp one)
      exact ⟨_, _, rfl, by simp, fun front _ => StopsAt.concat front _, booked _ _⟩
  · refine ⟨.firstCurrency date owner, _, rfl, by simp, fun front ends => by simpa using ends, ?_,
      rfl, rfl⟩
    rintro ⟨_, start, text⟩ same
    cases same
    rfl

/-- An opening. The date, the keyword and the account come first; the currencies and the booking
method may be missing. -/
theorem follow_opening (derives : DerivesSome Rule.opening.shapes tokens nodes) :
    Leads tokens (.tree .dated [.tree .opening nodes]) := by
  obtain ⟨_, _, _, _, begun, behindOwner, rfl, rfl⟩ := derivesSome_sections_iff.mp derives
  obtain ⟨_, listed, _, _, mayCurrencies, behindCurrencies, rfl, rfl⟩ :=
    derivesSome_sections_iff.mp behindOwner
  obtain ⟨_, _, _, _, mayBook, last, rfl, rfl⟩ := derivesSome_sections_iff.mp behindCurrencies
  obtain ⟨rfl, rfl⟩ := derivesSome_sections_nil_iff.mp last
  obtain ⟨⟨_, start, text⟩, _, _, rfl, rfl, rfl, behindDate⟩ :=
    derives_kept_iff.mp (derivesSome_singleton_iff.mp begun)
  obtain ⟨⟨_, middle, word⟩, _, rfl, rfl, hasOwner⟩ := derives_dropped_iff.mp behindDate
  obtain ⟨⟨_, other, name⟩, rfl, rfl, rfl⟩ := derives_token_iff.mp hasOwner
  obtain ⟨place, stop, run, sorts, ends, booked⟩ :=
    follow_currencies ⟨.date, start, text⟩ ⟨.account, other, name⟩ mayCurrencies
  obtain ⟨booking, quoted, rfl, rfl⟩ := derivesSome_optional_iff.mp mayBook
  have currencies : (tokensOf listed).filter (fun token => token.terminal = .currency) =
      tokensOf listed := List.filter_eq_self.mpr fun token member =>
        by simpa using sorts token member
  have first : Place.lineStart.follow [⟨.date, start, text⟩, ⟨.openWord, middle, word⟩,
      ⟨.account, other, name⟩] =
        some (.firstCurrency ⟨.date, start, text⟩ ⟨.account, other, name⟩) := rfl
  have begun : StopsAt [⟨.date, start, text⟩, ⟨.account, other, name⟩] (other + name.length) :=
    StopsAt.concat [_] ⟨.account, other, name⟩
  cases booking with
  | none =>
    refine ⟨_, place, ?_, booked.2, .opening rfl rfl ?_ ?_⟩
    · rw [Place.follow_append, first, Option.bind_some]
      simpa using run
    · simpa using currencies
    · simpa using ends _ begun
  | some booking =>
    refine ⟨_, .ended (.opening ⟨.date, start, text⟩ ⟨.account, other, name⟩ (tokensOf listed)
      booking.stop), ?_, ⟨rfl, rfl⟩, .opening rfl rfl ?_ ?_⟩
    · rw [Place.follow_append, first, Option.bind_some, Place.follow_append, run, Option.bind_some,
        List.append_nil]
      exact (Place.follow_singleton _ _).trans (booked.1 booking (quoted booking rfl))
    · simpa [quoted booking rfl] using currencies
    · simpa using StopsAt.concat (_ :: _ :: tokensOf listed) booking

end Opening

/-! ## Other directives -/

section Other

variable {tokens : List Token} {nodes : List Node}

/-- A directive without a further meaning. -/
theorem leads_otherDated {rule : Rule}
    (other : rule ≠ .transaction ∧ rule ≠ .opening ∧ rule ≠ .closing) {place : Place}
    (run : Place.lineStart.follow tokens = some place) (complete : Completes place .otherDated) :
    Leads tokens (.tree .dated [.tree rule nodes]) :=
  ⟨_, place, run, complete, .otherDated other nodes⟩

/-- Where numbers leave a purpose what it is. -/
theorem through_plain {purpose : Purpose} (plain : ∀ token, purpose.upTo token = purpose)
    (tokens : List Token) : purpose.through tokens = purpose := by
  induction tokens with
  | nil => rfl
  | cons token tokens ih => rw [Purpose.through_cons, plain, ih]

/-- A closing. -/
theorem leads_closing (derives : DerivesSome Rule.closing.shapes tokens nodes) :
    Leads tokens (.tree .dated [.tree .closing nodes]) := by
  obtain ⟨⟨_, start, text⟩, _, _, rfl, rfl, rfl, behindDate⟩ :=
    derives_kept_iff.mp (derivesSome_singleton_iff.mp derives)
  obtain ⟨⟨_, middle, word⟩, _, rfl, rfl, hasOwner⟩ := derives_dropped_iff.mp behindDate
  obtain ⟨⟨_, other, name⟩, rfl, rfl, rfl⟩ := derives_token_iff.mp hasOwner
  exact ⟨_, .ended _, rfl, ⟨rfl, rfl⟩, .closing rfl rfl⟩

/-- A balance. -/
theorem leads_balance (derives : DerivesSome Rule.balance.shapes tokens nodes) :
    Leads tokens (.tree .dated [.tree .balance nodes]) := by
  have begun {rest : Part} (last : Place) (complete : Completes last .otherDated)
      (leads : ∀ {tokens nodes}, Derives [rest] tokens nodes →
        (Place.operand .balance 0).follow tokens = some last)
      (derives : Derives [.kept .date, .dropped .balanceWord, .kept .account, rest] tokens nodes) :
      Leads tokens (.tree .dated [.tree .balance nodes]) := by
    obtain ⟨⟨_, start, text⟩, _, _, rfl, rfl, rfl, behindDate⟩ := derives_kept_iff.mp derives
    obtain ⟨⟨_, middle, word⟩, _, rfl, rfl, hasOwner⟩ := derives_dropped_iff.mp behindDate
    obtain ⟨⟨_, other, name⟩, _, _, rfl, rfl, rfl, behindOwner⟩ := derives_kept_iff.mp hasOwner
    exact leads_otherDated (by decide) (leads behindOwner) complete
  rcases derivesSome_cons_iff.mp derives with amount | tolerance
  · refine begun (.afterAmount .balance) ⟨rfl, rfl⟩ (fun amount => ?_) amount
    obtain ⟨_, numbers, currency, _, _, _, _, run⟩ :=
      follow_amount (admits_operand .balance) amount
    rw [run, through_plain fun _ => rfl]
    rfl
  · refine begun (.ended .otherDated) ⟨rfl, rfl⟩ (fun tolerance => ?_)
      (derivesSome_singleton_iff.mp tolerance)
    obtain ⟨parts, shaped, rfl⟩ := derives_only_iff.mp tolerance
    obtain ⟨_, _, _, _, first, behindFirst, rfl, rfl⟩ :=
      derives_cons_iff.mp (derivesSome_singleton_iff.mp shaped)
    obtain ⟨⟨_, start, tilde⟩, _, rfl, rfl, behindTilde⟩ := derives_dropped_iff.mp behindFirst
    obtain ⟨_, _, _, _, second, last, rfl, rfl⟩ := derives_cons_iff.mp behindTilde
    obtain ⟨⟨_, stop, currency⟩, rfl, rfl, rfl⟩ := derives_token_iff.mp last
    rw [Place.follow_append, (follow_number (admits_operand .balance) first).1, Option.bind_some,
      through_plain fun _ => rfl, Place.follow_cons]
    change (Place.operand .tolerance 0).follow _ = _
    rw [Place.follow_append, (follow_number (admits_operand .tolerance) second).1, Option.bind_some,
      through_plain fun _ => rfl]
    rfl

/-- A price of a currency. -/
theorem leads_price (derives : DerivesSome Rule.price.shapes tokens nodes) :
    Leads tokens (.tree .dated [.tree .price nodes]) := by
  obtain ⟨⟨_, start, text⟩, _, _, rfl, rfl, rfl, behindDate⟩ :=
    derives_kept_iff.mp (derivesSome_singleton_iff.mp derives)
  obtain ⟨⟨_, middle, word⟩, _, rfl, rfl, hasCurrency⟩ := derives_dropped_iff.mp behindDate
  obtain ⟨⟨_, other, name⟩, _, _, rfl, rfl, rfl, amount⟩ := derives_kept_iff.mp hasCurrency
  obtain ⟨_, numbers, currency, _, _, _, _, run⟩ :=
    follow_amount (admits_operand .quotation) amount
  rw [through_plain fun _ => rfl] at run
  exact leads_otherDated (by decide) run ⟨rfl, rfl⟩

/-- Behind an argument of a custom directive another one may follow. -/
def Argued (place : Place) : Prop :=
  Admits place .argument ∧ ∀ token : Token, token.terminal = .date ∨ token.terminal = .account ∨
    token.terminal = .quotedText ∨ token.terminal = .currency ∨ token.terminal = .boolean →
      place.pass token = some .nextArgument

/-- An argument of a custom directive. -/
theorem follow_argument {place : Place} (argued : Argued place)
    (derives : Derives [.rule .argument] tokens nodes) :
    ∃ next, place.follow tokens = some next ∧ Argued next ∧ Completes next .otherDated := by
  have single {terminal : Terminal} {parts : List Node}
      (sort : terminal = .date ∨ terminal = .account ∨ terminal = .quotedText ∨
        terminal = .currency ∨ terminal = .boolean) (kept : Derives [.kept terminal] tokens parts) :
      ∃ next, place.follow tokens = some next ∧ Argued next ∧ Completes next .otherDated := by
    obtain ⟨token, own, rfl, rfl⟩ := derives_token_iff.mp kept
    refine ⟨.nextArgument, ?_, ⟨?_, ?_⟩, rfl, rfl⟩
    · rw [Place.follow_singleton, argued.2 token (own ▸ sort)]
    · rintro ⟨_, start, text⟩ (same | same | same) <;> cases same <;> rfl
    · rintro ⟨_, start, text⟩ (same | same | same | same | same) <;> cases same <;> rfl
  obtain ⟨parts, shaped, rfl⟩ := derives_only_iff.mp derives
  rcases derivesSome_cons_iff.mp shaped with date | shaped
  · exact single (by simp) date
  rcases derivesSome_cons_iff.mp shaped with account | shaped
  · exact single (by simp) account
  rcases derivesSome_cons_iff.mp shaped with quoted | shaped
  · exact single (by simp) quoted
  rcases derivesSome_cons_iff.mp shaped with number | shaped
  · obtain ⟨run, _⟩ := follow_number argued.1 number
    rw [through_plain fun _ => rfl] at run
    refine ⟨_, run, ⟨?_, ?_⟩, rfl, rfl⟩
    · rintro ⟨_, start, text⟩ (same | same | same) <;> cases same <;> rfl
    · rintro ⟨_, start, text⟩ (same | same | same | same | same) <;> cases same <;> rfl
  rcases derivesSome_cons_iff.mp shaped with currency | boolean
  · exact single (by simp) currency
  · exact single (by simp) (derivesSome_singleton_iff.mp boolean)

/-- A custom directive. -/
theorem leads_custom (derives : DerivesSome Rule.custom.shapes tokens nodes) :
    Leads tokens (.tree .dated [.tree .custom nodes]) := by
  obtain ⟨⟨_, start, text⟩, _, _, rfl, rfl, rfl, behindDate⟩ :=
    derives_kept_iff.mp (derivesSome_singleton_iff.mp derives)
  obtain ⟨⟨_, middle, word⟩, _, rfl, rfl, arguments⟩ := derives_dropped_iff.mp behindDate
  obtain ⟨place, run, _, complete⟩ := arguments.repeated (fun tokens _ => ∀ place, Argued place →
      ∃ next, place.follow tokens = some next ∧ Argued next ∧ Completes next .otherDated) rfl rfl
    (fun argument place argued => follow_argument argued argument)
    (fun former argument place argued => by
      obtain ⟨_, run, argued, _⟩ := former place argued
      obtain ⟨next, runs, further⟩ := follow_argument argued argument
      exact ⟨next, by rw [Place.follow_append, run, Option.bind_some, runs], further⟩)
    .firstArgument (by
      refine ⟨?_, ?_⟩
      · rintro ⟨_, start, text⟩ (same | same | same) <;> cases same <;> rfl
      · rintro ⟨_, start, text⟩ (same | same | same | same | same) <;> cases same <;> rfl)
  exact leads_otherDated (by decide) run complete

/-- An event. -/
theorem leads_event (derives : DerivesSome Rule.event.shapes tokens nodes) :
    Leads tokens (.tree .dated [.tree .event nodes]) := by
  obtain ⟨⟨_, start, text⟩, _, _, rfl, rfl, rfl, behindDate⟩ :=
    derives_kept_iff.mp (derivesSome_singleton_iff.mp derives)
  obtain ⟨⟨_, middle, word⟩, _, rfl, rfl, behindWord⟩ := derives_dropped_iff.mp behindDate
  obtain ⟨⟨_, other, name⟩, _, _, rfl, rfl, rfl, last⟩ := derives_kept_iff.mp behindWord
  obtain ⟨⟨_, further, value⟩, rfl, rfl, rfl⟩ := derives_token_iff.mp last
  exact leads_otherDated (by decide) rfl ⟨rfl, rfl⟩

/-- A directive with a date, a word, an account and one more token. -/
theorem leads_owned {rule : Rule} {word last : Terminal}
    (listed : (rule, word, last) ∈ [(Rule.document, Terminal.documentWord, Terminal.quotedText),
      (Rule.note, Terminal.noteWord, Terminal.quotedText),
      (Rule.pad, Terminal.padWord, Terminal.account)])
    (derives : Derives [.kept .date, .dropped word, .kept .account, .kept last] tokens nodes) :
    Leads tokens (.tree .dated [.tree rule nodes]) := by
  obtain ⟨⟨_, start, text⟩, _, _, rfl, rfl, rfl, behindDate⟩ := derives_kept_iff.mp derives
  obtain ⟨⟨_, middle, spelled⟩, _, rfl, rfl, behindWord⟩ := derives_dropped_iff.mp behindDate
  obtain ⟨⟨_, other, name⟩, _, _, rfl, rfl, rfl, behindOwner⟩ := derives_kept_iff.mp behindWord
  obtain ⟨⟨_, further, value⟩, rfl, rfl, rfl⟩ := derives_token_iff.mp behindOwner
  simp only [List.mem_cons, List.not_mem_nil, or_false, Prod.mk.injEq] at listed
  rcases listed with ⟨rfl, rfl, rfl⟩ | ⟨rfl, rfl, rfl⟩ | ⟨rfl, rfl, rfl⟩ <;>
    exact leads_otherDated (by decide) rfl ⟨rfl, rfl⟩

/-- A commodity. -/
theorem leads_commodity (derives : DerivesSome Rule.commodity.shapes tokens nodes) :
    Leads tokens (.tree .dated [.tree .commodity nodes]) := by
  obtain ⟨⟨_, start, text⟩, _, _, rfl, rfl, rfl, behindDate⟩ :=
    derives_kept_iff.mp (derivesSome_singleton_iff.mp derives)
  obtain ⟨⟨_, middle, word⟩, _, rfl, rfl, last⟩ := derives_dropped_iff.mp behindDate
  obtain ⟨⟨_, other, name⟩, rfl, rfl, rfl⟩ := derives_token_iff.mp last
  exact leads_otherDated (by decide) rfl ⟨rfl, rfl⟩

/-- A directive with a date. -/
theorem leads_dated (derives : Derives [.rule .dated] tokens nodes) :
    ∃ node, nodes = [node] ∧ Leads tokens node := by
  obtain ⟨parts, ⟨shape, listed, within⟩, rfl⟩ := derives_only_iff.mp derives
  refine ⟨_, rfl, ?_⟩
  simp only [Rule.shapes, List.mem_cons, List.not_mem_nil, or_false] at listed
  rcases listed with rfl | rfl | rfl | rfl | rfl | rfl | rfl | rfl | rfl | rfl | rfl <;>
    obtain ⟨below, shaped, rfl⟩ := derives_only_iff.mp within
  · exact follow_opening shaped
  · exact leads_closing shaped
  · exact leads_balance shaped
  · exact leads_event shaped
  · exact leads_commodity shaped
  · exact leads_owned (by simp) (derivesSome_singleton_iff.mp shaped)
  · exact leads_owned (by simp) (derivesSome_singleton_iff.mp shaped)
  · exact leads_owned (by simp) (derivesSome_singleton_iff.mp shaped)
  · exact leads_price shaped
  · exact leads_custom shaped
  · exact follow_transaction shaped

/-- A directive without a date. The three are an option, an inclusion and a plugin, each a keyword
with its quotations. -/
theorem leads_undated (derives : Derives [.rule .undated] tokens nodes) :
    ∃ node, nodes = [node] ∧ Leads tokens node := by
  obtain ⟨parts, ⟨shape, listed, within⟩, rfl⟩ := derives_only_iff.mp derives
  refine ⟨_, rfl, ?_⟩
  simp only [Rule.shapes, List.mem_cons, List.not_mem_nil, or_false] at listed
  rcases listed with rfl | rfl | rfl <;> obtain ⟨below, shaped, rfl⟩ := derives_only_iff.mp within
  · obtain ⟨⟨_, start, word⟩, _, rfl, rfl, first⟩ :=
      derives_dropped_iff.mp (derivesSome_singleton_iff.mp shaped)
    obtain ⟨⟨_, middle, name⟩, _, _, rfl, rfl, rfl, last⟩ := derives_kept_iff.mp first
    obtain ⟨⟨_, other, value⟩, rfl, rfl, rfl⟩ := derives_token_iff.mp last
    exact ⟨_, .ended .otherUndated, rfl, ⟨rfl, rfl⟩, .otherUndated rfl⟩
  · obtain ⟨⟨_, start, word⟩, _, rfl, rfl, last⟩ :=
      derives_dropped_iff.mp (derivesSome_singleton_iff.mp shaped)
    obtain ⟨⟨_, other, path⟩, rfl, rfl, rfl⟩ := derives_token_iff.mp last
    exact ⟨_, .ended _, rfl, ⟨rfl, rfl⟩, .inclusion rfl⟩
  · obtain ⟨_, _, _, _, named, behindName, rfl, rfl⟩ := derivesSome_sections_iff.mp shaped
    obtain ⟨_, _, _, _, mayConfigure, last, rfl, rfl⟩ := derivesSome_sections_iff.mp behindName
    obtain ⟨rfl, rfl⟩ := derivesSome_sections_nil_iff.mp last
    obtain ⟨⟨_, start, word⟩, _, rfl, rfl, hasName⟩ :=
      derives_dropped_iff.mp (derivesSome_singleton_iff.mp named)
    obtain ⟨⟨_, middle, name⟩, rfl, rfl, rfl⟩ := derives_token_iff.mp hasName
    obtain ⟨value, quoted, rfl, rfl⟩ := derivesSome_optional_iff.mp mayConfigure
    cases value with
    | none => exact ⟨_, .pluginText, rfl, ⟨rfl, rfl⟩, .otherUndated rfl⟩
    | some value =>
      obtain ⟨_, other, text⟩ := value
      cases quoted _ rfl
      exact ⟨_, .ended .otherUndated, rfl, ⟨rfl, rfl⟩, .otherUndated rfl⟩

/-- A number moves the end of a metadata line. -/
theorem through_metadata (key : Token) {front : List Token} {stop : Nat} (ends : StopsAt front stop)
    (tokens : List Token) : ∃ further, StopsAt (front ++ tokens) further ∧
      (Purpose.metadata key stop).through tokens = .metadata key further := by
  induction tokens generalizing front stop with
  | nil => exact ⟨stop, by simpa using ends, rfl⟩
  | cons token tokens ih =>
    obtain ⟨further, moved, run⟩ := ih (StopsAt.concat front token)
    exact ⟨further, by simpa using moved, run⟩

/-- The value of a metadata key. -/
theorem follow_metadataValue (key : Token) (derives : Derives [.rule .metadataValue] tokens nodes) :
    ∃ place stop, (Place.metadataValue key).follow tokens = some place ∧
      Completes place (.metadata key stop) ∧ StopsAt (key :: tokensOf nodes) stop := by
  have admits : Admits (.metadataValue key) (.metadata key key.stop) := by
    rintro ⟨_, start, text⟩ (same | same | same) <;> cases same <;> rfl
  have single {terminal : Terminal} {parts : List Node}
      (sort : terminal = .quotedText ∨ terminal = .account ∨ terminal = .currency ∨
        terminal = .date ∨ terminal = .tags) (kept : Derives [.kept terminal] tokens parts) :
      ∃ place stop, (Place.metadataValue key).follow tokens = some place ∧
        Completes place (.metadata key stop) ∧ StopsAt (key :: tokensOf parts) stop := by
    obtain ⟨⟨_, start, text⟩, own, rfl, rfl⟩ := derives_token_iff.mp kept
    refine ⟨.ended (.metadata key (start + text.length)), _, ?_, ⟨rfl, rfl⟩, StopsAt.concat [key] _⟩
    rcases sort with same | same | same | same | same <;> cases same <;> cases own <;> rfl
  obtain ⟨parts, shaped, rfl⟩ := derives_only_iff.mp derives
  rw [Rule.tokensOf_build]
  rcases derivesSome_cons_iff.mp shaped with quoted | shaped
  · exact single (by simp) quoted
  rcases derivesSome_cons_iff.mp shaped with account | shaped
  · exact single (by simp) account
  rcases derivesSome_cons_iff.mp shaped with currency | shaped
  · exact single (by simp) currency
  rcases derivesSome_cons_iff.mp shaped with date | shaped
  · exact single (by simp) date
  rcases derivesSome_cons_iff.mp shaped with number | shaped
  · obtain ⟨run, _⟩ := follow_number admits number
    obtain ⟨stop, ends, moved⟩ := through_metadata key (StopsAt.concat [] key) (tokensOf parts)
    rw [moved] at run
    exact ⟨_, stop, run, ⟨rfl, rfl⟩, ends⟩
  rcases derivesSome_cons_iff.mp shaped with tags | amount
  · exact single (by simp) tags
  · obtain ⟨below, numbers, currency, rfl, kept, _, _, run⟩ :=
      follow_amount admits (derivesSome_singleton_iff.mp amount)
    obtain ⟨stop, _, moved⟩ := through_metadata key (StopsAt.concat [] key) numbers
    rw [moved] at run
    refine ⟨.afterAmount (.metadata key currency.stop), _, run, ⟨rfl, rfl⟩, ?_⟩
    simpa [kept] using StopsAt.concat (key :: numbers) currency

/-- A metadata line. -/
theorem leads_metadata (derives : Derives [.rule .metadata] tokens nodes) :
    ∃ node, nodes = [node] ∧ Leads tokens node := by
  obtain ⟨parts, shaped, rfl⟩ := derives_only_iff.mp derives
  refine ⟨_, rfl, ?_⟩
  obtain ⟨⟨_, start, name⟩, _, _, rfl, rfl, rfl, behindKey⟩ :=
    derives_kept_iff.mp (derivesSome_singleton_iff.mp shaped)
  obtain ⟨⟨_, middle, colon⟩, _, rfl, rfl, value⟩ := derives_dropped_iff.mp behindKey
  obtain ⟨place, stop, run, complete, ends⟩ :=
    follow_metadataValue ⟨.metadataKey, start, name⟩ value
  exact ⟨_, place, run, complete, .metadata ends⟩

/-- A posting. -/
theorem leads_posting (derives : Derives [.rule .posting] tokens nodes) :
    ∃ node, nodes = [node] ∧ Leads tokens node := by
  obtain ⟨parts, shaped, rfl⟩ := derives_only_iff.mp derives
  refine ⟨_, rfl, ?_⟩
  rcases derivesSome_cons_iff.mp shaped with detailed | simple
  · obtain ⟨below, within, rfl⟩ := derives_only_iff.mp detailed
    obtain ⟨line, place, shows, run, complete⟩ := follow_detailedPosting within
    exact ⟨_, place, run, complete, .posting shows⟩
  · obtain ⟨below, within, rfl⟩ := derives_only_iff.mp (derivesSome_singleton_iff.mp simple)
    obtain ⟨line, place, shows, run, complete⟩ := follow_simplePosting within
    exact ⟨_, place, run, complete, .posting shows⟩

/-- Any directive. -/
theorem leads_directive (derives : Derives [.rule .directive] tokens nodes) :
    ∃ node, nodes = [node] ∧ Leads tokens node := by
  obtain ⟨parts, ⟨shape, listed, within⟩, rfl⟩ := derives_only_iff.mp derives
  simp only [Rule.shapes, List.mem_cons, List.not_mem_nil, or_false] at listed
  rcases listed with rfl | rfl | rfl | rfl
  · obtain ⟨node, rfl, leads⟩ := leads_dated within
    exact ⟨node, rfl, leads⟩
  · obtain ⟨node, rfl, leads⟩ := leads_undated within
    exact ⟨node, rfl, leads⟩
  · obtain ⟨node, rfl, leads⟩ := leads_posting within
    exact ⟨node, rfl, leads⟩
  · obtain ⟨node, rfl, leads⟩ := leads_metadata within
    exact ⟨node, rfl, leads⟩

end Other

/-! ## Statements -/

/-- The tokens of a statement lead to a place where its line is complete, and its tree shows that
line. -/
theorem follow_statement {tokens : List Token} {nodes : List Node}
    (derives : Derives [.rule .statement] tokens nodes) : ∃ node line place, nodes = [node] ∧
      Shows node line ∧ Place.lineStart.follow tokens = some place ∧
      place.lines? = some [line] := by
  obtain ⟨parts, shaped, rfl⟩ := derives_only_iff.mp derives
  rcases derivesSome_append_iff.mp shaped with directive | remark
  · obtain ⟨_, _, _, _, only, behind, rfl, rfl⟩ := derivesSome_sections_iff.mp directive
    obtain ⟨_, _, _, _, mayComment, last, rfl, rfl⟩ := derivesSome_sections_iff.mp behind
    obtain ⟨rfl, rfl⟩ := derivesSome_sections_nil_iff.mp last
    obtain ⟨node, rfl, statement, place, run, complete, shows⟩ :=
      leads_directive (derivesSome_singleton_iff.mp only)
    obtain ⟨comment, sort, rfl, rfl⟩ := derivesSome_optional_iff.mp mayComment
    cases comment with
    | none =>
      refine ⟨_, _, place, rfl, .directive shows sort, ?_, complete.2⟩
      simpa using run
    | some comment =>
      refine ⟨_, _, .commented statement comment, rfl, .directive shows sort, ?_, rfl⟩
      rw [List.append_nil, Place.follow_append, run, Option.bind_some]
      refine (Place.follow_singleton _ _).trans ?_
      have inside : place.expected ≠ .lineEnd := complete.expected_ne shows
      rw [Place.pass, if_neg inside, Place.step, if_pos (sort comment rfl), complete.1]
  · rcases derivesSome_cons_iff.mp remark with comment | header
    · obtain ⟨⟨_, start, text⟩, rfl, rfl, rfl⟩ := derives_token_iff.mp comment
      exact ⟨_, _, .remarked, rfl, .remark _, rfl, rfl⟩
    · obtain ⟨⟨_, start, text⟩, rfl, rfl, rfl⟩ :=
        derives_token_iff.mp (derivesSome_singleton_iff.mp header)
      exact ⟨_, _, .remarked, rfl, .remark _, rfl, rfl⟩

end Daybook.Grammar
