import Daybook.Proofs.Grammar.ShownLines
import Daybook.Proofs.Page.Spans

/-!
# Collecting from trees does not fail

Collecting from trees remembers more than collecting from lines does: the parts of a heading until
its transaction is complete, the ends of all its lines, and the place of an open directive among
those that have been collected. `Keeps` says that the two memories stand for the same. A statement
does to the one what the line that it shows does to the other (`Keeps.step`), and so do the
statements of a file (`Keeps.run`). On the way every step that could fail is shown not to: the token
is there because the line has it, the parts are five because the rule has five, the positions have
offsets because the tokens stand in the text. The flag of a transaction is the only part that may be
missing where it is needed.
-/
namespace Daybook.Grammar

section Offsets

variable {path text : Text}

/-- Tokens that stand in a text, one after the other. -/
structure Settled (text : Text) (tokens : List Token) : Prop where
  order : tokens.Pairwise fun first second => first.stop ≤ second.start
  inside : ∀ token ∈ tokens, token.stop ≤ text.length

/-- Some of the tokens of a text stand in it as all of them do, so that what a tree leaves out does
no harm. -/
theorem Settled.sublist {tokens others : List Token} (settled : Settled text tokens)
    (fewer : others.Sublist tokens) : Settled text others :=
  ⟨settled.order.sublist fewer, fun token member => settled.inside token (fewer.subset member)⟩

/-- The offset of a position is asked for, and there may be none. -/
theorem offset_eq_required (source : Source) (position : Nat) :
    offset source position = required .noOffset (source.offsets.byte? position) := by
  unfold offset Text.Utf8.Offsets.byte?
  cases source.offsets.table <;> rfl

/-- A position in the text has an offset. -/
theorem offset_eq {position : Nat} (inside : position ≤ text.length) :
    offset (Source.ofText path text) position =
      .ok ((Source.ofText path text).offsets.byte position) := by
  have found : (Source.ofText path text).offsets.byte? position = _ :=
    Text.Utf8.Offsets.ofText_measures text position inside
  rw [offset_eq_required, found, Source.byte_take path inside]
  rfl

/-- Positions within the text have offsets. This is where collecting from trees could fail, and the
reason why it does not. -/
theorem spanOf_eq {start stop : Nat} (first : start ≤ text.length) (last : stop ≤ text.length) :
    spanOf (Source.ofText path text) start stop =
      .ok ((Source.ofText path text).span start stop) := by
  rw [spanOf, offset_eq first, offset_eq last]
  rfl

/-- A token in the text has bytes. -/
theorem tokenSpanOf_eq {token : Token} (inside : token.stop ≤ text.length) :
    tokenSpanOf (Source.ofText path text) token =
      .ok ((Source.ofText path text).tokenSpan token) :=
  spanOf_eq ((Nat.le_add_right _ _).trans inside) inside

end Offsets

/-- One more end. -/
theorem furthest_concat {α : Type} [Max α] {stops : List α} {stop : α}
    (found : furthest stops = .ok stop) (further : α) :
    furthest (stops ++ [further]) = .ok (max stop further) := by
  cases stops with
  | nil => cases found
  | cons first stops =>
    cases found
    simp [furthest, List.foldl_append]

/-- No end is further than the furthest. -/
theorem le_of_furthest {stops : List Nat} {stop bound : Nat} (found : furthest stops = .ok stop)
    (each : ∀ own ∈ stops, own ≤ bound) : stop ≤ bound := by
  cases stops with
  | nil => cases found
  | cons first stops =>
    cases found
    obtain ⟨own, others⟩ := List.forall_mem_cons.mp each
    induction stops generalizing first with
    | nil => exact own
    | cons second stops ih =>
      obtain ⟨also, rest⟩ := List.forall_mem_cons.mp others
      have most := Nat.max_le.mpr ⟨own, also⟩
      exact ih (max first second) (List.forall_mem_cons.mpr ⟨most, rest⟩) most rest

/-- The furthest end of tokens one after the other is the end of the last one. -/
theorem furthest_stops {text : Text} {tokens : List Token} {stop : Nat}
    (settled : Settled text tokens) (stops : StopsAt tokens stop) :
    furthest (tokens.map Token.stop) = .ok stop := by
  obtain ⟨last, found, rfl⟩ := stops
  obtain ⟨front, rfl⟩ := List.getLast?_eq_some_iff.mp found
  rw [List.map_append, List.map_singleton]
  cases earlier : furthest (front.map Token.stop) with
  | error fault =>
    cases front with
    | nil => rfl
    | cons token front => cases earlier
  | ok stop =>
    have before : stop ≤ last.stop := by
      refine le_of_furthest earlier fun own member => ?_
      obtain ⟨token, listed, rfl⟩ := List.mem_map.mp member
      have order := (List.pairwise_append.mp settled.order).2.2 token listed last List.mem_cons_self
      exact order.trans (Nat.le_add_right _ _)
    rw [furthest_concat earlier, Nat.max_eq_right before]

/-- The end of a statement is the end of its comment, or else of its directive. -/
theorem stopOf_eq {text : Text} {node : Node} (statement : Statement) {comment : Option Token}
    {stop : Nat} (settled : Settled text (tokensOf [node, .ofOption comment]))
    (stops : StopsAt (tokensOf [node]) stop) : Gathered.stopOf [node, .ofOption comment] =
      .ok (({ statement, comment } : Line).stop stop) ∧
      ({ statement, comment } : Line).stop stop ≤ text.length := by
  have whole : StopsAt (tokensOf [node, .ofOption comment])
      (({ statement, comment } : Line).stop stop) := by
    cases comment with
    | none => simpa [Node.ofOption, Line.stop] using stops
    | some comment => simpa [Node.ofOption, Line.stop] using
        StopsAt.concat (tokensOf [node]) comment
  refine ⟨furthest_stops settled whole, ?_⟩
  obtain ⟨last, found, same⟩ := whole
  exact same ▸ settled.inside last (List.mem_of_getLast? found)

section Posting

variable {path text : Text} {comment : Option Token} {line : PostingLine}

/-- The amount of a posting line. -/
def amountOfLine (source : Source) (line : PostingLine) : Amount :=
  let numberStop := (line.currency.map Token.start).getD line.account.stop
  let amountStop := (line.currency.map Token.stop).getD line.account.stop
  let number := Text.slice source.text line.account.stop numberStop
  let start := line.account.stop + (number.length - (Text.trimLeft number).length)
  { number := Text.trim number
    currency := (line.currency.map Token.text).getD []
    span := line.currency.map fun _ => source.span start amountStop
    stop := amountStop }

/-- The amount of a tree is that of the posting line it shows. The amount is the trimmed slice
between the account and the currency, both of which the tree and the line have in common. -/
theorem amountOf_eq {amount : Node} (shows : ShowsAmount amount line.currency)
    (own : line.account.stop ≤ text.length) (settled : Settled text amount.tokens) :
    amountOf (Source.ofText path text) line.account amount =
      .ok (amountOfLine (Source.ofText path text) line) := by
  cases known : line.currency with
  | none =>
    rw [known] at shows
    cases shows
    simp [amountOf, amountOfLine, known, Text.slice, Text.trim, Text.trimLeft, Text.trimRight]
  | some currency =>
    rw [known] at shows
    obtain ⟨parts, rfl, found, stops⟩ := shows
    have inside : currency.stop ≤ text.length :=
      settled.inside currency (List.mem_of_find?_eq_some found)
    have start : line.account.stop + ((Text.slice text line.account.stop currency.start).length -
        (Text.trimLeft (Text.slice text line.account.stop currency.start)).length) ≤
          text.length := by
      have short : (Text.slice text line.account.stop currency.start).length ≤
          text.length - line.account.stop := by simp [Text.slice]
      omega
    have furthest : furthest ((tokensOf parts).map Token.stop) = .ok currency.stop :=
      furthest_stops settled stops
    refine bind_eq_ok_iff.mpr ⟨(.amount, parts), rfl, bind_eq_ok_iff.mpr ⟨_, furthest, ?_⟩⟩
    simp only [found, amountOfLine, known, Option.map_some, Option.getD_some]
    exact bind_eq_ok_iff.mpr ⟨_, spanOf_eq start inside, rfl⟩

/-- The comment of a statement. -/
theorem commentOf_eq (sort : ∀ token ∈ comment, token.terminal = .comment) (node : Node) :
    commentOf [node, .ofOption comment] = comment := by
  cases comment with
  | none => rfl
  | some comment => simp [commentOf, Node.ofOption, sort comment rfl]

/-- The amount of a posting is one of its parts. -/
theorem amount_sublist {rule : Rule} {parts : List Node} {amount cost price : Node}
    (details : detailsOf rule parts = .ok (amount, cost, price)) :
    amount.tokens.Sublist (tokensOf parts) := by
  unfold detailsOf at details
  split at details
  · split at details
    · cases details
      simp only [tokensOf_cons]
      exact ((List.sublist_append_left _ _).trans (List.sublist_append_right _ _)).trans
        (List.sublist_append_right _ _)
    · cases details
  · cases details
    exact List.nil_sublist _

/-- The posting of a tree is that of the posting line it shows. The tokens of the tree are those
that the line keeps, so their spans and slices are the same. -/
theorem postingOf_eq {rule : Rule} {parts : List Node} (shows : ShowsPosting rule parts line)
    (sort : ∀ token ∈ comment, token.terminal = .comment)
    (settled : Settled text (tokensOf [.tree .posting [.tree rule parts], .ofOption comment])) :
    postingOf (Source.ofText path text) [.tree rule parts]
        [.tree .posting [.tree rule parts], .ofOption comment] =
      .ok (PostingEntry.ofLine (Source.ofText path text) line comment) := by
  obtain ⟨amount, cost, price, details, amounts, costs, prices⟩ := shows.details
  have whole : Settled text (tokensOf parts ++ comment.toList) := by simpa using settled
  have inner := whole.sublist (List.sublist_append_left _ _)
  have own : line.account.stop ≤ text.length :=
    inner.inside _ (List.mem_of_find?_eq_some shows.account)
  have last : line.stop ≤ text.length := by
    obtain ⟨token, found, same⟩ := shows.ends
    exact same ▸ inner.inside token (List.mem_of_getLast? found)
  have amountFound : amountOf (Source.ofText path text) line.account _ = _ :=
    amountOf_eq amounts own (inner.sublist (amount_sublist details))
  refine bind_eq_ok_iff.mpr ⟨_, rfl, bind_eq_ok_iff.mpr ⟨(rule, parts), rfl, ?_⟩⟩
  refine bind_eq_ok_iff.mpr ⟨line.account, by rw [shows.account]; rfl, ?_⟩
  refine bind_eq_ok_iff.mpr ⟨_, details, bind_eq_ok_iff.mpr ⟨_, amountFound, ?_⟩⟩
  refine bind_eq_ok_iff.mpr ⟨_, furthest_stops inner shows.ends, ?_⟩
  refine bind_eq_ok_iff.mpr ⟨_, tokenSpanOf_eq own, ?_⟩
  refine bind_eq_ok_iff.mpr ⟨_, spanOf_eq ?_ ?_, ?_⟩
  · exact (Nat.le_add_right _ _).trans own
  · rw [commentOf_eq sort]
    refine Nat.max_le.mpr ⟨last, (Nat.sub_le _ _).trans ?_⟩
    cases comment with
    | none =>
      have short := Lexeme.stretch_le (· ≠ '\n') (text.drop line.account.stop)
      rw [List.length_drop] at short
      change line.account.stop + Text.stretch (· ≠ '\n') (text.drop line.account.stop) ≤ _
      omega
    | some comment =>
      have inside := whole.inside comment (by simp)
      exact (Nat.le_add_right _ _).trans inside
  · rw [commentOf_eq sort, costs, prices]
    unfold PostingEntry.ofLine amountOfLine
    cases line.currency <;> cases comment <;> rfl

end Posting

/-! ## Closing what is open -/

section Finish

variable {path text : Text}

/-- What stands in the place of an optional token is that token. -/
theorem asOptional_ofOption (token : Option Token) :
    (Node.ofOption token).asOptional = .ok token := by
  cases token <;> rfl

/-- A heading that is still open, as the parts of its tree. -/
structure Awaits (text : Text) (awaited : Awaited) (heading : Heading)
    (postings : List PostingEntry) (stop : Int) : Prop where
  parts : ∃ marks, awaited.parts = [.token heading.date, .ofOption heading.flag,
      .ofOption heading.payee, .ofOption heading.narration, marks] ∧
    tagsOf marks = .ok ((heading.marks.filter fun token => token.terminal = .tag).map
      fun token => token.text.drop 1)
  postings : awaited.postings = postings
  ends : furthest awaited.ends = .ok stop
  date : heading.date.stop ≤ text.length
  flag : ∀ token ∈ heading.flag, token.stop ≤ text.length
  narration : ∀ token ∈ heading.narration, token.stop ≤ text.length

/-- A transaction is complete exactly if it has a flag. The fields of the entry are computed from
the heading alone, and a missing flag is the only failure. -/
theorem Awaits.transaction {awaited : Awaited} {heading : Heading} {postings : List PostingEntry}
    {stop : Int} (awaits : Awaits text awaited heading postings stop) :
    awaited.transaction (Source.ofText path text) = match heading.flag with
      | none => .error .flagless
      | some flag =>
        .ok (.transaction (heading.entry (Source.ofText path text) flag postings stop)) := by
  obtain ⟨marks, parts, tags⟩ := awaits.parts
  unfold Awaited.transaction
  rw [parts]
  dsimp only
  cases flagged : heading.flag with
  | none =>
    refine bind_eq_error_iff.mpr (Or.inr ⟨_, tags, bind_eq_error_iff.mpr (Or.inr ⟨_, rfl, ?_⟩)⟩)
    exact bind_eq_error_iff.mpr (Or.inr ⟨_, tokenSpanOf_eq awaits.date,
      bind_eq_error_iff.mpr (Or.inl rfl)⟩)
  | some flag =>
    have narration : heading.narration.mapM (tokenSpanOf (Source.ofText path text)) =
        .ok (heading.narration.map (Source.ofText path text).tokenSpan) := by
      cases narrated : heading.narration with
      | none => rfl
      | some narration =>
        have inside : tokenSpanOf (Source.ofText path text) narration = _ :=
          tokenSpanOf_eq (awaits.narration narration narrated)
        rw [Option.mapM_some, inside]
        rfl
    refine bind_eq_ok_iff.mpr ⟨_, tags, bind_eq_ok_iff.mpr ⟨_, rfl, ?_⟩⟩
    refine bind_eq_ok_iff.mpr ⟨_, tokenSpanOf_eq awaits.date, bind_eq_ok_iff.mpr ⟨flag, rfl, ?_⟩⟩
    refine bind_eq_ok_iff.mpr ⟨_, asOptional_ofOption _, bind_eq_ok_iff.mpr
      ⟨_, asOptional_ofOption _, ?_⟩⟩
    refine bind_eq_ok_iff.mpr ⟨_, tokenSpanOf_eq (awaits.flag flag flagged), bind_eq_ok_iff.mpr
      ⟨_, narration, bind_eq_ok_iff.mpr ⟨_, awaits.ends, ?_⟩⟩⟩
    rw [awaits.postings]
    rfl

/-- What has been gathered from trees stands for what is remembered of the lines they show, after
these directives have been closed. -/
def Holds (text : Text) (gathered : Gathered) (closed : List Directive) : Pending → Prop
  | .nothing => gathered.directives = closed ∧ gathered.awaited = none ∧
      gathered.isDated = false ∧ gathered.entry = none
  | .other => gathered.directives = closed ∧ gathered.awaited = none ∧
      gathered.isDated = true ∧ gathered.entry = none
  | .account make span => gathered.directives = closed ++ [make span] ∧ gathered.awaited = none ∧
      gathered.isDated = true ∧ gathered.entry = some closed.length ∧
      ∀ span stop, (make span).upTo stop = make { span with stop }
  | .transaction heading postings stop => gathered.directives = closed ∧ gathered.isDated = true ∧
      gathered.entry = none ∧
      ∃ awaited, gathered.awaited = some awaited ∧ Awaits text awaited heading postings stop

/-- Closing what is open adds the directive that is closed, or fails because it has no flag. There
is one case for each thing that may be open, and only a transaction without a flag fails. -/
theorem Holds.finish {gathered : Gathered} {closed : List Directive} {pending : Pending}
    (holds : Holds text gathered closed pending) :
    gathered.finish (Source.ofText path text) = match pending.finish (Source.ofText path text) with
      | .error _ => .error .flagless
      | .ok further => .ok { gathered with directives := closed ++ further, awaited := none } := by
  obtain ⟨directives, warnings, awaiting, isDated, entry, included⟩ := gathered
  cases pending with
  | nothing =>
    obtain ⟨rfl, rfl, _⟩ := holds
    simp [Gathered.finish, Pending.finish]
  | other =>
    obtain ⟨rfl, rfl, _⟩ := holds
    simp [Gathered.finish, Pending.finish]
  | account make span =>
    obtain ⟨rfl, rfl, _⟩ := holds
    rfl
  | transaction heading postings stop =>
    obtain ⟨rfl, _, _, awaited, rfl, awaits⟩ := holds
    have complete : awaited.transaction (Source.ofText path text) = _ := awaits.transaction
    simp only [Gathered.finish, complete, Pending.finish]
    cases heading.flag <;> rfl

end Finish

/-! ## One statement -/

section Step

variable {path text : Text} {gathered : Gathered} {progress : Progress} {done : Collected}

/-- What has been gathered from trees stands for what the lines they show have yielded, and for what
is remembered of them. -/
structure Keeps (text : Text) (gathered : Gathered) (progress : Progress) (done : Collected) :
    Prop where
  holds : Holds text gathered done.directives progress.pending
  warnings : gathered.warnings = done.warnings
  included : gathered.included = progress.included

/-- A statement does to what has been gathered what its line does to what is remembered. It fails
exactly where the line does, and in one way only. -/
def Agree (text : Text) (taken : Except Fault Gathered) (done : Collected) :
    Except Failure (Progress × Collected) → Prop
  | .error _ => taken = .error .flagless
  | .ok (next, yielded) => ∃ after, taken = .ok after ∧ Keeps text after next (done.append yielded)

/-- A warning and nothing else. -/
theorem Keeps.warned (keeps : Keeps text gathered progress done) (token : Token) (message : Text) :
    Agree text (.ok (gathered.warn (Source.ofText path text) token message)) done
      (.ok (progress, ⟨[], [(Source.ofText path text).warn token message]⟩)) := by
  refine ⟨_, rfl, ⟨?_, ?_, keeps.included⟩⟩
  · have holds := keeps.holds
    rw [Collected.append_directives, List.append_nil]
    generalize progress.pending = pending at holds
    cases pending <;> exact holds
  · rw [Gathered.warn, keeps.warnings]
    rfl

/-- A directive that closes what is open. -/
theorem Keeps.closes (keeps : Keeps text gathered progress done) {pending : Pending}
    {included : List Phrase} {yields : List Directive → Collected}
    {takes : Gathered → Except Fault Gathered}
    (taken : ∀ closed, ∃ after, takes { gathered with
        directives := done.directives ++ closed, awaited := none } = .ok after ∧
      Keeps text after ⟨pending, included⟩ (done.append (yields closed))) :
    Agree text (gathered.finish (Source.ofText path text) >>= takes) done
      ((progress.pending.finish (Source.ofText path text)).map fun closed =>
        (⟨pending, included⟩, yields closed)) := by
  rw [keeps.holds.finish]
  cases progress.pending.finish (Source.ofText path text) with
  | error failure => rfl
  | ok closed => exact taken closed

/-- A directive with a date is taken up, and nothing is open. -/
structure Gathered.Fresh (before : Gathered) : Prop where
  free : before.awaited = none
  dated : before.isDated = true
  none : before.entry = none

/-- A directive with a date closes what is open and is open then. -/
theorem Keeps.dated (keeps : Keeps text gathered progress done) {directive : Node}
    {statement : List Node} {pending : Pending}
    (takes : ∀ before : Gathered, before.Fresh → ∃ after,
      Gathered.takeDated (Source.ofText path text) before directive statement = .ok after ∧
        Holds text after before.directives pending ∧ after.warnings = before.warnings ∧
        after.included = before.included) :
    Agree text (gathered.finish (Source.ofText path text) >>= fun before =>
        Gathered.takeDated (Source.ofText path text) { before with isDated := true, entry := none }
          directive statement) done
      ((progress.pending.finish (Source.ofText path text)).map fun closed =>
        (⟨pending, progress.included⟩, ⟨closed, []⟩)) := by
  refine keeps.closes fun closed => ?_
  obtain ⟨after, taken, holds, warnings, included⟩ := takes { gathered with
    directives := done.directives ++ closed, awaited := none, isDated := true, entry := none }
    ⟨rfl, rfl, rfl⟩
  refine ⟨after, taken, holds, ?_, included.trans keeps.included⟩
  rw [warnings, Collected.append_warnings, List.append_nil]
  exact keeps.warnings

section Dated

variable {before : Gathered} {comment : Option Token}

/-- A transaction is open with its heading. The end of the transaction is that of its last token or
its comment, as it is of its line. -/
theorem takeDated_transaction (fresh : before.Fresh) {heading : Heading} {marks : Node}
    (tags : tagsOf marks = .ok ((heading.marks.filter fun token => token.terminal = .tag).map
      fun token => token.text.drop 1)) {directive : Node}
    (whole : directive = .tree .dated [.tree .transaction [.token heading.date,
      .ofOption heading.flag, .ofOption heading.payee, .ofOption heading.narration, marks]])
    (ends : StopsAt (tokensOf [directive]) heading.stop)
    (settled : Settled text (tokensOf [directive, .ofOption comment])) :
    ∃ after, Gathered.takeDated (Source.ofText path text) before (.tree .transaction
        [.token heading.date, .ofOption heading.flag, .ofOption heading.payee,
          .ofOption heading.narration, marks]) [directive, .ofOption comment] = .ok after ∧
      Holds text after before.directives (.transaction heading []
        ((Source.ofText path text).offsets.byte
          (({ statement := .transaction heading, comment } : Line).stop heading.stop))) ∧
      after.warnings = before.warnings ∧ after.included = before.included := by
  obtain ⟨stop, inside⟩ := stopOf_eq (.transaction heading) settled ends
  refine ⟨_, bind_eq_ok_iff.mpr ⟨_, rfl, bind_eq_ok_iff.mpr ⟨_, stop,
    bind_eq_ok_iff.mpr ⟨_, offset_eq inside, rfl⟩⟩⟩, ⟨rfl, fresh.dated, fresh.none, _, rfl, ?_⟩,
    rfl, rfl⟩
  have own : ∀ token ∈ heading.date :: (heading.flag.toList ++ heading.narration.toList),
      token.stop ≤ text.length := by
    intro token member
    refine settled.inside token ?_
    simp only [whole, tokensOf_cons, Node.tokens_tree, Node.tokens_token, Node.tokens_ofOption,
      List.mem_append, List.mem_cons] at member ⊢
    tauto
  refine ⟨⟨marks, rfl, tags⟩, rfl, rfl, own _ (by simp), fun token found => own token ?_,
    fun token found => own token ?_⟩
  · simp [Option.mem_def.mp found]
  · simp [Option.mem_def.mp found]

/-- An opening is open until its last metadata line. The first date, the first account and the
currencies are found among the tokens of the directive. -/
theorem takeDated_opening (fresh : before.Fresh) {date account : Token} {currencies : List Token}
    {stop : Nat} {parts : List Node} (dated : firstOf .date (tokensOf parts) = some date)
    (named : firstOf .account (tokensOf parts) = some account)
    (listed : ((tokensOf parts).filter fun token => token.terminal = .currency) = currencies)
    (ends : StopsAt (tokensOf parts) stop)
    (settled : Settled text (tokensOf [.tree .dated [.tree .opening parts], .ofOption comment])) :
    ∃ after, Gathered.takeDated (Source.ofText path text) before (.tree .opening parts)
        [.tree .dated [.tree .opening parts], .ofOption comment] = .ok after ∧
      Holds text after before.directives (.account
        (Directive.opening date.text account.text (currencies.map Token.text)
          ((Source.ofText path text).tokenSpan date))
        ((Source.ofText path text).span date.start
          (({ statement := .opening date account currencies stop, comment } : Line).stop stop))) ∧
      after.warnings = before.warnings ∧ after.included = before.included := by
  obtain ⟨found, inside⟩ :=
    stopOf_eq (.opening date account currencies stop) settled (by simpa using ends)
  have own : date.stop ≤ text.length :=
    settled.inside date (by simp [List.mem_of_find?_eq_some dated])
  have start : date.start ≤ text.length := (Nat.le_add_right _ _).trans own
  refine ⟨_, bind_eq_ok_iff.mpr ⟨_, rfl, bind_eq_ok_iff.mpr ⟨date, by rw [dated]; rfl,
    bind_eq_ok_iff.mpr ⟨account, by rw [named]; rfl, bind_eq_ok_iff.mpr ⟨_, tokenSpanOf_eq own,
      bind_eq_ok_iff.mpr ⟨_, found, bind_eq_ok_iff.mpr ⟨_, spanOf_eq start inside, rfl⟩⟩⟩⟩⟩⟩,
    ⟨?_, fresh.free, fresh.dated, rfl, fun _ _ => rfl⟩, rfl, rfl⟩
  rw [← listed]
  rfl

/-- So is a closing. -/
theorem takeDated_closing (fresh : before.Fresh) {date account : Token}
    (dated : date.terminal = .date) (named : account.terminal = .account)
    (settled : Settled text (tokensOf
      [.tree .dated [.tree .closing [.token date, .token account]], .ofOption comment])) :
    ∃ after, Gathered.takeDated (Source.ofText path text) before
        (.tree .closing [.token date, .token account])
        [.tree .dated [.tree .closing [.token date, .token account]], .ofOption comment] =
          .ok after ∧
      Holds text after before.directives (.account
        (Directive.closing date.text account.text ((Source.ofText path text).tokenSpan date))
        ((Source.ofText path text).span date.start
          (({ statement := .closing date account, comment } : Line).stop account.stop))) ∧
      after.warnings = before.warnings ∧ after.included = before.included := by
  obtain ⟨found, inside⟩ := stopOf_eq (.closing date account) settled
    (StopsAt.concat [date] account)
  have own : date.stop ≤ text.length := settled.inside date (by simp)
  have start : date.start ≤ text.length := (Nat.le_add_right _ _).trans own
  have other : ∀ token ∈ [date], token.terminal ≠ .account := by simp [dated]
  have first : firstOf .account [date, account] = some account :=
    (firstOf_append other).trans (firstOf_cons_self named [])
  refine ⟨_, bind_eq_ok_iff.mpr ⟨_, rfl, bind_eq_ok_iff.mpr ⟨date, ?_,
    bind_eq_ok_iff.mpr ⟨account, ?_, bind_eq_ok_iff.mpr ⟨_, tokenSpanOf_eq own,
      bind_eq_ok_iff.mpr ⟨_, found, bind_eq_ok_iff.mpr ⟨_, spanOf_eq start inside, rfl⟩⟩⟩⟩⟩⟩,
    ⟨rfl, fresh.free, fresh.dated, rfl, fun _ _ => rfl⟩, rfl, rfl⟩
  · exact congrArg (required Fault.noToken) (firstOf_cons_self dated [account])
  · exact congrArg (required Fault.noToken) first

end Dated

section Attached

variable {comment : Option Token}

/-- A posting joins the transaction that is open, and else it causes a warning. Where a transaction
is open its postings grow on both sides; where nothing is open the warning is at the first token of
the line. -/
theorem Keeps.posting (keeps : Keeps text gathered progress done) {rule : Rule} {parts : List Node}
    {line : PostingLine} (shows : ShowsPosting rule parts line)
    (sort : ∀ token ∈ comment, token.terminal = .comment)
    (settled : Settled text (tokensOf [.tree .posting [.tree rule parts], .ofOption comment])) :
    Agree text (gathered.takeStatement (Source.ofText path text)
        (.tree .statement [.tree .posting [.tree rule parts], .ofOption comment])) done
      (progress.advance (Source.ofText path text) { statement := .posting line, comment }) := by
  obtain ⟨pending, included⟩ := progress
  have alone (free : gathered.awaited = none) : gathered.takeStatement (Source.ofText path text)
      (.tree .statement [.tree .posting [.tree rule parts], .ofOption comment]) =
        .ok (gathered.warn (Source.ofText path text) line.first
          "Posting outside of a transaction") := by
    have first : (tokensOf [.tree rule parts]).head? = some line.first := by
      simpa using shows.first
    obtain ⟨directives, warnings, awaited, isDated, entry, included⟩ := gathered
    cases free
    exact bind_eq_ok_iff.mpr ⟨_, rfl, bind_eq_ok_iff.mpr ⟨line.first, by rw [first]; rfl, rfl⟩⟩
  cases pending with
  | nothing =>
    rw [alone keeps.holds.2.1]
    exact keeps.warned _ _
  | other =>
    rw [alone keeps.holds.2.1]
    exact keeps.warned _ _
  | account make span =>
    rw [alone keeps.holds.2.1]
    exact keeps.warned _ _
  | transaction heading postings stop =>
    obtain ⟨directives, warnings, _, isDated, entry, _⟩ := gathered
    obtain ⟨⟨rfl, rfl, rfl, awaited, rfl, awaits⟩, rfl, rfl⟩ := keeps
    refine ⟨_, bind_eq_ok_iff.mpr ⟨_, rfl, bind_eq_ok_iff.mpr
      ⟨_, postingOf_eq shows sort settled, rfl⟩⟩, ⟨?_, ?_, rfl⟩⟩
    · refine ⟨by simp, rfl, rfl, _, rfl, awaits.parts, ?_, furthest_concat awaits.ends _,
        awaits.date, awaits.flag, awaits.narration⟩
      rw [awaits.postings]
    · simp

/-- A metadata line moves the end of what is open, and where nothing is open it causes a warning.
What is open decides: a directive has its end moved, and the warning is at the key. -/
theorem Keeps.metadata (keeps : Keeps text gathered progress done) {key : Token} {stop : Nat}
    {parts : List Node} (ends : StopsAt (key :: tokensOf parts) stop)
    (settled : Settled text (tokensOf [.tree .metadata (.token key :: parts), .ofOption comment])) :
    Agree text (gathered.takeStatement (Source.ofText path text)
        (.tree .statement [.tree .metadata (.token key :: parts), .ofOption comment])) done
      (progress.advance (Source.ofText path text)
        { statement := .metadata key stop, comment }) := by
  obtain ⟨found, inside⟩ := stopOf_eq (.metadata key stop) settled (by simpa using ends)
  have taken (dated : gathered.isDated = true) : gathered.takeStatement (Source.ofText path text)
      (.tree .statement [.tree .metadata (.token key :: parts), .ofOption comment]) =
        gathered.takeMetadata ((Source.ofText path text).offsets.byte
          (({ statement := .metadata key stop, comment } : Line).stop stop)) := by
    rw [Gathered.takeStatement_metadata, if_pos dated, found]
    change (offset _ _ >>= fun byte => gathered.takeMetadata byte) = _
    rw [offset_eq inside]
    rfl
  obtain ⟨pending, included⟩ := progress
  cases pending with
  | nothing =>
    have own : gathered.takeStatement (Source.ofText path text)
        (.tree .statement [.tree .metadata (.token key :: parts), .ofOption comment]) =
          .ok (gathered.warn (Source.ofText path text) key "Metadata outside of a directive") := by
      rw [Gathered.takeStatement_metadata, keeps.holds.2.2.1]
      rfl
    rw [own]
    exact keeps.warned _ _
  | other =>
    rw [taken keeps.holds.2.2.1]
    obtain ⟨directives, warnings, awaiting, _, entry, _⟩ := gathered
    obtain ⟨⟨rfl, rfl, rfl, rfl⟩, rfl, rfl⟩ := keeps
    exact ⟨_, rfl, ⟨by simp, rfl, rfl, rfl⟩, by simp, rfl⟩
  | account make span =>
    rw [taken keeps.holds.2.2.1]
    obtain ⟨directives, warnings, awaiting, _, entry, _⟩ := gathered
    obtain ⟨⟨rfl, rfl, rfl, rfl, moves⟩, rfl, rfl⟩ := keeps
    refine ⟨_, bind_eq_ok_iff.mpr ⟨make span, by simp [required], rfl⟩, ⟨?_, rfl, rfl, ?_, ?_⟩,
      ?_, rfl⟩
    · rw [List.set_append_right _ _ (Nat.le_refl _), Nat.sub_self, moves]
      simp
    · simp
    · exact moves
    · simp
  | transaction heading postings stop =>
    rw [taken keeps.holds.2.1]
    obtain ⟨directives, warnings, _, _, entry, _⟩ := gathered
    obtain ⟨⟨rfl, rfl, rfl, awaited, rfl, awaits⟩, rfl, rfl⟩ := keeps
    exact ⟨_, rfl, ⟨by simp, rfl, rfl, _, rfl, awaits.parts, awaits.postings,
      furthest_concat awaits.ends _, awaits.date, awaits.flag, awaits.narration⟩, by simp, rfl⟩

end Attached

section Undated

variable {comment : Option Token}

/-- The inclusions of a directive without a date. -/
theorem find_undated (directive : Node) :
    Node.find .inclusion (.tree .statement [.tree .undated [directive], .ofOption comment]) =
      directive.find .inclusion := by
  have whole : Node.find .inclusion
      (.tree .statement [.tree .undated [directive], .ofOption comment]) =
      directive.find .inclusion ++ [] ++ ((Node.ofOption comment).find .inclusion ++ []) := rfl
  have none : (Node.ofOption comment).find .inclusion = [] := by cases comment <;> rfl
  rw [whole, none]
  simp

/-- An inclusion is added, with a warning if its path has been included before. The path is the
decoded quotation, and whether it is new is asked of the same list on both sides. -/
theorem takeInclusion_eq {token : Token} (quoted : token.terminal = .quotedText)
    (inside : token.stop ≤ text.length) (gathered : Gathered) :
    ∃ after, gathered.takeInclusion (Source.ofText path text) [.token token] = .ok after ∧
      after.directives = gathered.directives ++
        [.inclusion (Text.Quoted.decode token.text) ((Source.ofText path text).tokenSpan token)] ∧
      after.warnings = gathered.warnings ++
        (if Text.Quoted.decode token.text ∈ gathered.included then
        [(Source.ofText path text).warn token
          ("Duplicate include of " ++ (Text.Quoted.decode token.text).shown)] else []) ∧
      after.included = Text.Quoted.decode token.text :: gathered.included ∧
      after.awaited = gathered.awaited ∧ after.isDated = gathered.isDated ∧
      after.entry = gathered.entry := by
  have found : firstOf .quotedText (tokensOf [.token token]) = some token :=
    firstOf_cons_self quoted []
  unfold Gathered.takeInclusion
  rw [found]
  dsimp only
  by_cases repeated : Text.Quoted.decode token.text ∈ gathered.included
  · rw [if_pos repeated, if_pos repeated]
    exact ⟨_, bind_eq_ok_iff.mpr ⟨_, tokenSpanOf_eq inside, rfl⟩, rfl, rfl, rfl, rfl, rfl, rfl⟩
  · rw [if_neg repeated, if_neg repeated, List.append_nil]
    exact ⟨_, bind_eq_ok_iff.mpr ⟨_, tokenSpanOf_eq inside, rfl⟩, rfl, rfl, rfl, rfl, rfl, rfl⟩

end Undated

/-- A statement does what its line does. The case is that of the statement, and each is one of the
lemmas above. -/
theorem Keeps.step (keeps : Keeps text gathered progress done) {node : Node} {line : Line}
    (shows : Shows node line) (settled : Settled text node.tokens) :
    Agree text (gathered.takeStatement (Source.ofText path text) node) done
      (progress.advance (Source.ofText path text) line) := by
  cases shows with
  | remark token =>
    refine ⟨gathered, rfl, ?_⟩
    rw [← Collected.append_nothing done] at keeps
    exact keeps
  | @directive node statement comment shows sort =>
    rw [Node.tokens_tree] at settled
    cases shows with
    | @transaction heading marks tags ends =>
      rw [Gathered.takeStatement_dated]
      exact keeps.dated fun before fresh =>
        takeDated_transaction fresh tags rfl (by simpa using ends) settled
    | opening dated named listed ends =>
      rw [Gathered.takeStatement_dated]
      exact keeps.dated fun before fresh => takeDated_opening fresh dated named listed ends settled
    | closing dated named =>
      rw [Gathered.takeStatement_dated]
      exact keeps.dated fun before fresh => takeDated_closing fresh dated named settled
    | @otherDated rule other parts =>
      rw [Gathered.takeStatement_dated]
      refine keeps.dated fun before fresh => ⟨before, ?_,
        ⟨rfl, fresh.free, fresh.dated, fresh.none⟩,
        rfl, rfl⟩
      obtain ⟨noTransaction, noOpening, noClosing⟩ := other
      cases rule <;> first | rfl | contradiction
    | posting shows => exact keeps.posting shows sort settled
    | metadata ends => exact keeps.metadata ends settled
    | @inclusion token quoted =>
      rw [Gathered.takeStatement_undated, find_undated]
      refine keeps.closes fun closed => ?_
      obtain ⟨after, taken, directives, warnings, included, free, dated, none⟩ :=
        takeInclusion_eq quoted (settled.inside token (by simp)) { gathered with
          directives := done.directives ++ closed, awaited := none, isDated := false,
          entry := none }
      refine ⟨after, bind_eq_ok_iff.mpr ⟨after, taken, rfl⟩, ⟨?_, free, dated, none⟩, ?_, ?_⟩
      · rw [directives, Collected.append_directives, List.append_assoc]
      · rw [warnings, Collected.append_warnings, keeps.warnings, keeps.included]
      · rw [included, keeps.included]
    | @otherUndated rule parts other =>
      rw [Gathered.takeStatement_undated, find_undated, other]
      refine keeps.closes fun closed => ⟨_, rfl, ⟨rfl, rfl, rfl, rfl⟩, ?_, keeps.included⟩
      rw [Collected.append_warnings, List.append_nil]
      exact keeps.warnings

/-- Several statements do what their lines do. The induction is on the lines, and what is remembered
between them is kept in agreement by each step. -/
theorem Keeps.run {nodes : List Node} {lines : List Line} (shows : ShowsAll nodes lines)
    (keeps : Keeps text gathered progress done) (settled : Settled text (tokensOf nodes)) :
    (nodes.foldlM (Gathered.takeStatement (Source.ofText path text)) gathered >>= fun after =>
        after.finish (Source.ofText path text) >>= fun last =>
          .ok (⟨last.directives, last.warnings⟩ : Collected)) =
      match collectFrom (Source.ofText path text) progress.pending progress.included lines with
      | .error _ => .error .flagless
      | .ok others => .ok (done.append others) := by
  induction shows generalizing gathered progress done with
  | nil =>
    change (gathered.finish (Source.ofText path text) >>= _) = match (progress.pending.finish
      (Source.ofText path text) >>= fun closed => .ok (⟨closed, []⟩ : Collected)) with
      | .error _ => .error .flagless
      | .ok others => .ok (done.append others)
    rw [keeps.holds.finish]
    cases progress.pending.finish (Source.ofText path text) with
    | error failure => rfl
    | ok closed =>
      have warnings := keeps.warnings
      simp [Collected.append, warnings, bind, Except.bind]
  | gap _ ih => exact ih keeps settled
  | @cons node line nodes lines shows _ ih =>
    have own : Agree text (gathered.takeStatement (Source.ofText path text) node) _ _ :=
      keeps.step shows (settled.sublist (List.sublist_append_left _ _))
    rw [List.foldlM_cons, Progress.collectFrom_eq]
    cases advanced : progress.advance (Source.ofText path text) line with
    | error failure =>
      rw [advanced] at own
      rw [show gathered.takeStatement (Source.ofText path text) node = .error .flagless from own]
      rfl
    | ok result =>
      obtain ⟨next, yielded⟩ := result
      rw [advanced] at own
      obtain ⟨after, taken, further⟩ := own
      have others := ih further (settled.sublist (List.sublist_append_right _ _))
      rw [taken]
      refine others.trans ?_
      change _ = match (collectFrom _ next.pending next.included lines).map yielded.append with
        | .error _ => _
        | .ok others => _
      cases collectFrom (Source.ofText path text) next.pending next.included lines with
      | error failure => rfl
      | ok last => simp [Except.map, Collected.append_assoc]

end Step

/-- What is collected from a tree is what is collected from the lines that it shows, and it fails
only where a transaction has no flag. -/
theorem collectTree_eq {path text : Text} {nodes : List Node} {lines : List Line}
    (shows : ShowsAll nodes lines) (settled : Settled text (tokensOf nodes)) :
    collectTree (Source.ofText path text) (.tree .start nodes) =
      match collect (Source.ofText path text) lines with
      | .error _ => .error .flagless
      | .ok collected => .ok collected := by
  have keeps : Keeps text {} ⟨.nothing, []⟩ .nothing := ⟨⟨rfl, rfl, rfl, rfl⟩, rfl, rfl⟩
  exact keeps.run shows settled

end Daybook.Grammar
