import OpcodeAtlas.Json.Reader
import OpcodeAtlas.Proofs.Json.Quoted

/-!
# OpcodeAtlas.Proofs.Json.Taken — what a reader takes

A reader that succeeds has taken bytes, and no failure of the source among them; and every text
that begins among them ends among them (`Takes`). So a quote is a quote for the reader exactly when
it is one for a scan of the bytes that knows of nothing but texts and their escapes (`Quoting`).

* `takes_textBytes`, `takes_text` — a text, up to its closing quote;
* `takes_number`, `takes_scalar` — parts that hold no others;
* `takes_items`, `takes_members`, `takes_value` — lists and objects, by induction on their rounds and
  levels;
* `takes_document` — a document takes its whole feed.
-/

namespace OpcodeAtlas.Json

/-- Where a byte of a document stands. -/
inductive Quoting where
  /-- Outside of all texts. -/
  | outside
  /-- In a text. -/
  | inside
  /-- Behind a backslash in a text. -/
  | escaped
deriving DecidableEq, Repr

/-- The state behind a byte. -/
def Quoting.next : Quoting → UInt8 → Quoting
  | .outside, b => if b = 0x22 then .inside else .outside
  | .inside, b => if b = 0x22 then .outside else if b = 0x5C then .escaped else .inside
  | .escaped, _ => .inside

/-- Between the feed and its rest there are bytes only, and they lead from one state to the
other. -/
def Takes (s : Quoting) (feed rest : Feed) (t : Quoting) : Prop :=
  ∃ bytes, feed = Feed.ofBytes bytes ++ rest ∧ bytes.foldl Quoting.next s = t

namespace Takes

variable {s t u : Quoting} {feed mid rest : Feed}

theorem refl (s : Quoting) (feed : Feed) : Takes s feed feed s := ⟨[], rfl, rfl⟩

theorem trans (h : Takes s feed mid t) (h' : Takes t mid rest u) : Takes s feed rest u := by
  rcases h with ⟨bytes, rfl, rfl⟩
  rcases h' with ⟨others, rfl, rfl⟩
  exact ⟨bytes ++ others, by rw [Feed.ofBytes_append, List.append_assoc], List.foldl_append⟩

theorem byte (s : Quoting) (b : UInt8) (rest : Feed) : Takes s (some b :: rest) rest (s.next b) :=
  ⟨[b], rfl, rfl⟩

/-- Outside of texts every byte but a quote stays outside. -/
theorem mark {b : UInt8} (h : b ≠ 0x22) (rest : Feed) :
    Takes .outside (some b :: rest) rest .outside := by
  have hnext : Quoting.outside.next b = .outside := if_neg h
  have hbyte := byte .outside b rest
  rwa [hnext] at hbyte

end Takes

/-! ## Blanks and words -/

variable {feed rest : Feed}

/-- Skipping bytes that are no quotes takes them. -/
theorem takes_skip (skip : Feed → Except Failure Feed) (p : UInt8 → Bool)
    (hnil : skip [] = .ok []) (hnone : ∀ more, skip (none :: more) = .error (.source more))
    (hsome : ∀ b more, skip (some b :: more) = if p b then skip more else .ok (some b :: more))
    (hp : ∀ b, p b = true → b ≠ 0x22) (h : skip feed = .ok rest) :
    Takes .outside feed rest .outside := by
  induction feed with
  | nil =>
    rw [hnil] at h
    cases h
    exact .refl _ _
  | cons item more ih =>
    cases item with
    | none =>
      rw [hnone] at h
      cases h
    | some b =>
      rw [hsome] at h
      split at h
      · rename_i hskipped
        exact (Takes.mark (hp b hskipped) more).trans (ih h)
      · cases h
        exact .refl _ _

theorem takes_skipBlank (h : skipBlank feed = .ok rest) : Takes .outside feed rest .outside := by
  refine takes_skip skipBlank isBlankByte rfl (fun _ => rfl) (fun _ _ => rfl) ?_ h
  rintro b hblank rfl
  exact absurd hblank (by decide)

theorem takes_expect {word : List UInt8} (hword : ∀ b ∈ word, b ≠ 0x22)
    (h : expect word feed = .ok rest) : Takes .outside feed rest .outside := by
  induction word generalizing feed with
  | nil =>
    cases h
    exact .refl _ _
  | cons wanted others ih =>
    cases feed with
    | nil => cases h
    | cons item more =>
      cases item with
      | none => cases h
      | some b =>
        rw [expect] at h
        split at h
        · rename_i hb
          subst hb
          exact (Takes.mark (hword b List.mem_cons_self) more).trans
            (ih (fun b' hb' => hword b' (List.mem_cons_of_mem _ hb')) h)
        · cases h

/-- A look at the next byte shows it, or that there is none. -/
theorem peek_cases {next : Option UInt8} (h : peek feed = .ok next) :
    feed = [] ∧ next = none ∨ ∃ b more, feed = some b :: more ∧ next = some b := by
  cases feed with
  | nil =>
    cases h
    exact .inl ⟨rfl, rfl⟩
  | cons item more =>
    cases item with
    | none => cases h
    | some b =>
      cases h
      exact .inr ⟨b, more, rfl, rfl⟩

/-! ## Numbers -/

theorem ne_quote_of_digit {b : UInt8} (h : (digit? b).isSome) : b ≠ 0x22 := by
  rintro rfl
  exact absurd h (by decide)

theorem ne_quote_of_digit? {b : UInt8} {d : Nat} (h : digit? b = some d) : b ≠ 0x22 :=
  ne_quote_of_digit (by rw [h]; rfl)

section Numbers

variable {negative down any : Bool} {significand e : Nat} {base exp : Int} {n : Number}

theorem takes_finishReal (h : finishReal negative significand exp feed = .ok (n, rest)) :
    Takes .outside feed rest .outside := by
  unfold finishReal at h
  split at h
  · cases h
    exact .refl _ _
  · cases h

theorem takes_skipDigits (h : skipDigits feed = .ok rest) : Takes .outside feed rest .outside :=
  takes_skip skipDigits (fun b => (digit? b).isSome) rfl (fun _ => rfl) (fun _ _ => rfl)
    (fun _ => ne_quote_of_digit) h

theorem takes_exponentDigits
    (h : exponentDigits negative significand base down e feed = .ok (n, rest)) :
    Takes .outside feed rest .outside := by
  induction feed generalizing e with
  | nil => exact takes_finishReal h
  | cons item more ih =>
    cases item with
    | none => cases h
    | some b =>
      rw [exponentDigits] at h
      split at h
      · rename_i d hd
        have hbyte := Takes.mark (ne_quote_of_digit? hd) more
        split at h
        · exact hbyte.trans (ih h)
        · split at h
          · cases h
          · rcases Outcome.map_eq_ok.1 h with ⟨behind, hskip, hrest⟩
            cases hrest
            exact hbyte.trans (takes_skipDigits hskip)
      · exact takes_finishReal h

theorem takes_unsignedExponent
    (h : unsignedExponent negative significand base down feed = .ok (n, rest)) :
    Takes .outside feed rest .outside := by
  cases feed with
  | nil => cases h
  | cons item more =>
    cases item with
    | none => cases h
    | some b =>
      rw [unsignedExponent] at h
      split at h
      · rename_i d hd
        exact (Takes.mark (ne_quote_of_digit? hd) more).trans (takes_exponentDigits h)
      · cases h

theorem takes_exponent (h : exponent negative significand base feed = .ok (n, rest)) :
    Takes .outside feed rest .outside := by
  rcases Outcome.bind_eq_ok.1 h with ⟨next, hpeek, h⟩
  rcases peek_cases hpeek with ⟨rfl, rfl⟩ | ⟨b, more, rfl, rfl⟩
  · exact takes_unsignedExponent h
  · split at h
    · rename_i hsign
      obtain rfl : b = 0x2B := Option.some.inj hsign
      exact (Takes.mark (by decide) more).trans (takes_unsignedExponent h)
    · rename_i hsign
      obtain rfl : b = 0x2D := Option.some.inj hsign
      exact (Takes.mark (by decide) more).trans (takes_unsignedExponent h)
    · exact takes_unsignedExponent h

theorem ne_quote_of_exponentMark {b : UInt8} (h : isExponentMark b = true) : b ≠ 0x22 := by
  rintro rfl
  exact absurd h (by decide)

theorem takes_afterFraction (h : afterFraction negative significand base feed = .ok (n, rest)) :
    Takes .outside feed rest .outside := by
  rcases Outcome.bind_eq_ok.1 h with ⟨next, hpeek, h⟩
  rcases peek_cases hpeek with ⟨rfl, rfl⟩ | ⟨b, more, rfl, rfl⟩
  · exact takes_finishReal h
  · change (if isExponentMark b then _ else _) = _ at h
    split at h
    · rename_i hmark
      exact (Takes.mark (ne_quote_of_exponentMark hmark) more).trans (takes_exponent h)
    · exact takes_finishReal h

theorem takes_fraction (h : fraction negative significand base any feed = .ok (n, rest)) :
    Takes .outside feed rest .outside := by
  -- The digits end in front of another byte or with the feed; both ends are the same step.
  have hfinish : ∀ {significand : Nat} {base : Int} {any : Bool} {feed : Feed},
      fraction.finish negative significand base any feed = .ok (n, rest) →
        Takes .outside feed rest .outside := by
    intro significand base any feed h
    rw [fraction.finish] at h
    split at h
    · exact takes_afterFraction h
    · cases h
  induction feed generalizing significand base any with
  | nil => exact hfinish h
  | cons item more ih =>
    cases item with
    | none => cases h
    | some b =>
      rw [fraction] at h
      split at h
      · rename_i d hd
        have hbyte := Takes.mark (ne_quote_of_digit? hd) more
        split at h
        · exact hbyte.trans (ih h)
        · rcases Outcome.bind_eq_ok.1 h with ⟨behind, hskip, h⟩
          exact (hbyte.trans (takes_skipDigits hskip)).trans (takes_afterFraction h)
      · exact hfinish h

theorem takes_excessDigits (h : excessDigits negative significand base feed = .ok (n, rest)) :
    Takes .outside feed rest .outside := by
  induction feed generalizing base with
  | nil => exact takes_finishReal h
  | cons item more ih =>
    cases item with
    | none => cases h
    | some b =>
      rw [excessDigits] at h
      split at h
      · rename_i hdigit
        exact (Takes.mark (ne_quote_of_digit hdigit) more).trans (ih h)
      · split at h
        · rename_i hpoint
          subst hpoint
          exact (Takes.mark (by decide) more).trans (takes_fraction h)
        · split at h
          · rename_i hmark
            exact (Takes.mark (ne_quote_of_exponentMark hmark) more).trans (takes_exponent h)
          · exact takes_finishReal h

theorem takes_afterInteger (h : afterInteger negative significand feed = .ok (n, rest)) :
    Takes .outside feed rest .outside := by
  rcases Outcome.bind_eq_ok.1 h with ⟨next, hpeek, h⟩
  rcases peek_cases hpeek with ⟨rfl, rfl⟩ | ⟨b, more, rfl, rfl⟩
  · cases h
    exact .refl _ _
  · change (if b = 0x2E then _ else if isExponentMark b then _ else _) = _ at h
    split at h
    · rename_i hpoint
      subst hpoint
      exact (Takes.mark (by decide) more).trans (takes_fraction h)
    · split at h
      · rename_i hmark
        exact (Takes.mark (ne_quote_of_exponentMark hmark) more).trans (takes_exponent h)
      · cases h
        exact .refl _ _

theorem takes_integerDigits (h : integerDigits negative significand feed = .ok (n, rest)) :
    Takes .outside feed rest .outside := by
  induction feed generalizing significand with
  | nil => exact takes_afterInteger h
  | cons item more ih =>
    cases item with
    | none => cases h
    | some b =>
      rw [integerDigits] at h
      split at h
      · rename_i d hd
        have hbyte := Takes.mark (ne_quote_of_digit? hd) more
        split at h
        · exact hbyte.trans (ih h)
        · exact hbyte.trans (takes_excessDigits h)
      · exact takes_afterInteger h

theorem takes_number (h : number negative feed = .ok (n, rest)) :
    Takes .outside feed rest .outside := by
  cases feed with
  | nil => cases h
  | cons item more =>
    cases item with
    | none => cases h
    | some b =>
      rw [number] at h
      split at h
      · cases h
      · rename_i hd
        have hbyte := Takes.mark (ne_quote_of_digit? hd) more
        rcases Outcome.bind_eq_ok.1 h with ⟨next, hpeek, h⟩
        split at h
        · split at h
          · cases h
          · exact hbyte.trans (takes_afterInteger h)
        · exact hbyte.trans (takes_afterInteger h)
      · rename_i hd
        exact (Takes.mark (ne_quote_of_digit? hd) more).trans (takes_integerDigits h)

end Numbers

/-! ## Texts -/

/-- Where a reader of a text stands among its bytes. -/
def Escape.quoting : Escape → Quoting
  | .opened => .escaped
  | .leadingOpened _ => .escaped
  | _ => .inside

theorem hexValue?_of_code? {digits : List UInt8} {code : Nat} (h : Escape.code? digits = some code) :
    ∀ b ∈ digits, (Text.hexValue? b).isSome := by
  induction digits generalizing code with
  | nil =>
    intro b hb
    cases hb
  | cons last others ih =>
    rcases Option.bind_eq_some_iff.1 h with ⟨front, hfront, h⟩
    rcases Option.bind_eq_some_iff.1 h with ⟨d, hd, -⟩
    intro b hb
    rcases List.mem_cons.1 hb with rfl | hother
    · rw [hd]
      rfl
    · exact ih hfront b hother

/-- The digits of an escape are checked when all four are there; so in a text that is read to its
end they are digits, those still to come among them. -/
theorem hexValue?_of_textBytes {leading? : Option Nat} {seen found bytes : List UInt8}
    (h : textBytes (.digits leading? seen) found feed = .ok (bytes, rest)) :
    (∀ b ∈ seen, (Text.hexValue? b).isSome) ∧
      ∀ b more, feed = some b :: more → (Text.hexValue? b).isSome := by
  induction feed generalizing seen found with
  | nil => cases h
  | cons item more ih =>
    cases item with
    | none => cases h
    | some b =>
      -- With the fourth byte the digits are checked; before it, the next byte answers for this one.
      have hall : ∀ b' ∈ b :: seen, (Text.hexValue? b').isSome := by
        rw [textBytes, if_neg (by simp), Escape.step] at h
        by_cases hfew : seen.length < 3
        · rw [if_pos hfew] at h
          exact (ih h).1
        · rw [if_neg hfew] at h
          cases hcode : Escape.code? (b :: seen) with
          | none =>
            rw [hcode] at h
            cases h
          | some code => exact hexValue?_of_code? hcode
      refine ⟨fun b' hb' => hall b' (List.mem_cons_of_mem _ hb'), ?_⟩
      intro b' others heq
      cases heq
      exact hall b List.mem_cons_self

/-- Behind four digits the reader stands between two characters. -/
theorem quoting_finish {leading? : Option Nat} {code : Nat} {next : Escape} {added : List UInt8}
    (h : Escape.finish leading? code = .ok (next, added)) : next.quoting = .inside := by
  by_cases htrailing : 0xDC00 ≤ code ∧ code ≤ 0xDFFF
  · cases leading? with
    | none =>
      rw [Escape.finish, if_pos htrailing] at h
      cases h
    | some high =>
      rw [Escape.finish, if_pos htrailing] at h
      cases h
      rfl
  · cases leading? with
    | none =>
      rw [Escape.finish, if_neg htrailing] at h
      split at h <;> cases h <;> rfl
    | some high =>
      rw [Escape.finish, if_neg htrailing] at h
      cases h

/-- A byte of a text leads a scan of the bytes where it leads the reader, if digits are digits. -/
theorem quoting_step {state next : Escape} {b : UInt8} {added : List UInt8}
    (hopen : ¬(state = .none ∧ b = 0x22))
    (hdigit : ∀ leading? seen, state = .digits leading? seen → (Text.hexValue? b).isSome)
    (hstep : state.step b = .ok (next, added)) : state.quoting.next b = next.quoting := by
  cases state with
  | none =>
    have hquote : b ≠ 0x22 := fun hb => hopen ⟨rfl, hb⟩
    change (if b = 0x22 then _ else if b = 0x5C then _ else _) = _
    rw [if_neg hquote]
    rw [Escape.step] at hstep
    split at hstep
    · rename_i hbackslash
      cases hstep
      exact if_pos hbackslash
    · rename_i hbackslash
      split at hstep <;> cases hstep
      exact if_neg hbackslash
  | opened =>
    rw [Escape.step] at hstep
    split at hstep
    · cases hstep
      rfl
    · split at hstep <;> cases hstep
      rfl
  | digits leading? seen =>
    have hhex := hdigit leading? seen rfl
    have hinside : Quoting.inside.next b = .inside := by
      have hquote : b ≠ 0x22 := by
        rintro rfl
        exact absurd hhex (by decide)
      have hbackslash : b ≠ 0x5C := by
        rintro rfl
        exact absurd hhex (by decide)
      rw [Quoting.next, if_neg hquote, if_neg hbackslash]
    refine hinside.trans ?_
    rw [Escape.step] at hstep
    split at hstep
    · cases hstep
      rfl
    · split at hstep
      · exact (quoting_finish hstep).symm
      · cases hstep
  | leading code =>
    rw [Escape.step] at hstep
    split at hstep <;> cases hstep
    rename_i hbackslash
    subst hbackslash
    rfl
  | leadingOpened code =>
    rw [Escape.step] at hstep
    split at hstep <;> cases hstep
    rfl

theorem takes_textBytes {state : Escape} {found bytes : List UInt8}
    (h : textBytes state found feed = .ok (bytes, rest)) :
    Takes state.quoting feed rest .outside := by
  induction feed generalizing state found with
  | nil => cases h
  | cons item more ih =>
    cases item with
    | none => cases h
    | some b =>
      -- A quote among the digits would part the reader from the scan.
      have hdigit : ∀ leading? seen, state = .digits leading? seen →
          (Text.hexValue? b).isSome := by
        rintro leading? seen rfl
        exact (hexValue?_of_textBytes h).2 b more rfl
      rw [textBytes] at h
      split at h
      · rename_i hclosing
        rcases hclosing with ⟨rfl, rfl⟩
        cases h
        exact Takes.byte .inside 0x22 rest
      · rename_i hopen
        cases hstep : state.step b with
        | error fault =>
          rw [hstep] at h
          cases h
        | ok r =>
          rcases r with ⟨next, added⟩
          rw [hstep] at h
          have hbyte := Takes.byte state.quoting b more
          rw [quoting_step hopen hdigit hstep] at hbyte
          exact hbyte.trans (ih h)

theorem takes_text {s : String} (h : text feed = .ok (s, rest)) :
    Takes .inside feed rest .outside := by
  rcases Outcome.bind_eq_ok.1 h with ⟨⟨bytes, behind⟩, hbytes, h⟩
  dsimp only at h
  split at h
  · cases h
    exact takes_textBytes hbytes
  · cases h

/-! ## Lists and objects -/

theorem takes_nextItem? {first : Bool} {found : Option Feed}
    (h : nextItem? first feed = .ok (found, rest)) :
    Takes .outside feed rest .outside ∧ ∀ start, found = some start → start = rest := by
  rcases Outcome.bind_eq_ok.1 h with ⟨next, hskip, h⟩
  have hblank := takes_skipBlank hskip
  split at h
  · cases h
    exact ⟨hblank, fun start hstart => by cases hstart⟩
  · rename_i b more _
    split at h
    · cases h
      exact ⟨hblank, fun start hstart => by cases hstart; rfl⟩
    · split at h
      · rename_i hcomma
        subst hcomma
        rcases Outcome.bind_eq_ok.1 h with ⟨behind, hskip', h⟩
        have hcomma := (Takes.mark (b := 0x2C) (by decide) more).trans (takes_skipBlank hskip')
        split at h <;> cases h
        exact ⟨hblank.trans hcomma, fun start hstart => by cases hstart; rfl⟩
      · cases h
  · cases h

theorem takes_key {found : Option String} (h : nextKey?.key feed = .ok (found, rest)) :
    Takes .outside (some 0x22 :: feed) rest .outside := by
  rcases Outcome.map_eq_ok.1 h with ⟨⟨s, behind⟩, htext, heq⟩
  cases heq
  exact (Takes.byte .outside 0x22 feed).trans (takes_text htext)

theorem takes_nextKey? {first : Bool} {found : Option String}
    (h : nextKey? first feed = .ok (found, rest)) : Takes .outside feed rest .outside := by
  rcases Outcome.bind_eq_ok.1 h with ⟨next, hskip, h⟩
  have hblank := takes_skipBlank hskip
  split at h
  · cases h
    exact hblank
  · rename_i b more _
    split at h
    · split at h
      · rename_i hquote
        subst hquote
        exact hblank.trans (takes_key h)
      · cases h
    · split at h
      · rename_i hcomma
        subst hcomma
        rcases Outcome.bind_eq_ok.1 h with ⟨behind, hskip', h⟩
        have hcomma := (Takes.mark (b := 0x2C) (by decide) more).trans (takes_skipBlank hskip')
        split at h
        · exact (hblank.trans hcomma).trans (takes_key h)
        all_goals cases h
      · cases h
  · cases h

theorem takes_colon (h : colon feed = .ok rest) : Takes .outside feed rest .outside := by
  rcases Outcome.bind_eq_ok.1 h with ⟨next, hskip, h⟩
  split at h <;> cases h
  refine (takes_skipBlank hskip).trans (Takes.mark ?_ _)
  decide

theorem takes_closeList (h : closeList feed = .ok rest) : Takes .outside feed rest .outside := by
  rcases Outcome.bind_eq_ok.1 h with ⟨next, hskip, h⟩
  split at h
  · cases h
    refine (takes_skipBlank hskip).trans (Takes.mark ?_ _)
    decide
  · split at h <;> cases h
  all_goals cases h

theorem takes_closeObject (h : closeObject feed = .ok rest) :
    Takes .outside feed rest .outside := by
  rcases Outcome.bind_eq_ok.1 h with ⟨next, hskip, h⟩
  split at h <;> cases h
  refine (takes_skipBlank hskip).trans (Takes.mark ?_ _)
  decide

/-- Outside of texts the step takes bytes up to a place outside of texts. -/
def Whole {α : Type} (step : Step α) : Prop :=
  ∀ {feed rest : Feed} {found : α}, step feed = .ok (found, rest) →
    Takes .outside feed rest .outside

section Parts

variable {α : Type} {item : Step α} (hitem : Whole item)

include hitem

theorem takes_items (bound : Nat) (first : Bool) : Whole (items item bound first) := by
  intro feed rest found h
  -- A round takes the marks in front of an item and the item; the other rounds take the rest.
  induction bound generalizing first feed found with
  | zero => cases h
  | succ bound ih =>
    rw [items] at h
    rcases Outcome.bind_eq_ok.1 h with ⟨⟨start?, behind⟩, hnext, h⟩
    rcases takes_nextItem? hnext with ⟨hmarks, hstart⟩
    cases start? with
    | none =>
      cases h
      exact hmarks
    | some start =>
      obtain rfl : start = behind := hstart start rfl
      rcases Outcome.bind_eq_ok.1 h with ⟨⟨x, behindItem⟩, hx, h⟩
      rcases Outcome.bind_eq_ok.1 h with ⟨⟨others, behindOthers⟩, hothers, h⟩
      cases h
      exact (hmarks.trans (hitem hx)).trans (ih false hothers)

theorem takes_members (bound : Nat) (first : Bool) : Whole (members item bound first) := by
  intro feed rest found h
  induction bound generalizing first feed found with
  | zero => cases h
  | succ bound ih =>
    rw [members] at h
    rcases Outcome.bind_eq_ok.1 h with ⟨⟨key?, behind⟩, hnext, h⟩
    have hmarks := takes_nextKey? hnext
    cases key? with
    | none =>
      cases h
      exact hmarks
    | some key =>
      rcases Outcome.bind_eq_ok.1 h with ⟨behindColon, hcolon, h⟩
      rcases Outcome.bind_eq_ok.1 h with ⟨⟨x, behindItem⟩, hx, h⟩
      rcases Outcome.bind_eq_ok.1 h with ⟨⟨others, behindOthers⟩, hothers, h⟩
      cases h
      exact ((hmarks.trans (takes_colon hcolon)).trans (hitem hx)).trans (ih false hothers)

end Parts

theorem takes_enclosed {α : Type} {parts : Step α} {close : Feed → Except Failure Feed}
    (hparts : Whole parts)
    (hclose : ∀ {feed rest}, close feed = .ok rest → Takes .outside feed rest .outside) :
    Whole (enclosed parts close) := by
  intro feed rest found h
  rw [enclosed] at h
  split at h
  · cases h
  · rename_i behind hfound
    rcases Outcome.map_eq_ok.1 h with ⟨last, hlast, heq⟩
    cases heq
    exact (hparts hfound).trans (hclose hlast)

/-! ## Documents -/

theorem takes_scalar {b : UInt8} {more : Feed} {v : Value}
    (h : scalar b (some b :: more) = .ok (v, rest)) :
    Takes .outside (some b :: more) rest .outside := by
  have hword : ∀ {word : List UInt8} {v' : Value}, (word.all fun b' => b' ≠ 0x22) = true →
      b ≠ 0x22 → (expect word more).map (v', ·) = .ok (v, rest) →
        Takes .outside (some b :: more) rest .outside := by
    intro word v' hall hb h
    rcases Outcome.map_eq_ok.1 h with ⟨behind, hexpect, heq⟩
    cases heq
    have hnoQuote : ∀ b' ∈ word, b' ≠ 0x22 := fun b' hb' => by
      simpa using List.all_eq_true.1 hall b' hb'
    exact (Takes.mark hb more).trans (takes_expect hnoQuote hexpect)
  unfold scalar at h
  split at h
  · exact hword (by decide) (by rintro rfl; contradiction) h
  split at h
  · exact hword (by decide) (by rintro rfl; contradiction) h
  split at h
  · exact hword (by decide) (by rintro rfl; contradiction) h
  split at h
  · rename_i hminus
    subst hminus
    rcases Outcome.map_eq_ok.1 h with ⟨⟨n, behind⟩, hnumber, heq⟩
    cases heq
    exact (Takes.mark (by decide) more).trans (takes_number hnumber)
  split at h
  · rcases Outcome.map_eq_ok.1 h with ⟨⟨n, behind⟩, hnumber, heq⟩
    cases heq
    exact takes_number hnumber
  split at h
  · rename_i hquote
    subst hquote
    rcases Outcome.map_eq_ok.1 h with ⟨⟨s, behind⟩, htext, heq⟩
    cases heq
    exact (Takes.byte .outside 0x22 more).trans (takes_text htext)
  · cases h

theorem takes_value (bound depth : Nat) : Whole (value bound depth) := by
  induction depth with
  | zero =>
    intro feed rest v h
    rw [value] at h
    rcases Outcome.bind_eq_ok.1 h with ⟨next, hskip, h⟩
    split at h
    · split at h
      · cases h
      · exact (takes_skipBlank hskip).trans (takes_scalar h)
    · cases h
  | succ depth ih =>
    intro feed rest v h
    rw [value] at h
    rcases Outcome.bind_eq_ok.1 h with ⟨next, hskip, h⟩
    refine (takes_skipBlank hskip).trans ?_
    split at h
    · rename_i b more
      split at h
      · rename_i hopening
        subst hopening
        rcases Outcome.bind_eq_ok.1 h with ⟨⟨found, behind⟩, hparts, h⟩
        cases h
        exact (Takes.mark (by decide) more).trans
          (takes_enclosed (takes_items ih bound true) takes_closeList hparts)
      · split at h
        · rename_i hopening
          subst hopening
          rcases Outcome.bind_eq_ok.1 h with ⟨⟨found, behind⟩, hparts, h⟩
          cases h
          exact (Takes.mark (by decide) more).trans
            (takes_enclosed (takes_members ih bound true) takes_closeObject hparts)
        · exact takes_scalar h
    · cases h

theorem takes_finish (h : finish feed = .ok ()) : Takes .outside feed [] .outside := by
  rcases Outcome.bind_eq_ok.1 h with ⟨behind, hskip, h⟩
  split at h
  · exact takes_skipBlank hskip
  · cases h

/-- A document takes its whole feed, and ends outside of texts. -/
theorem takes_document {v : Value} (h : document feed = .ok v) :
    Takes .outside feed [] .outside := by
  rcases Outcome.bind_eq_ok.1 h with ⟨⟨v', behind⟩, hvalue, h⟩
  rcases Outcome.bind_eq_ok.1 h with ⟨_, hfinish, -⟩
  exact (takes_value _ _ hvalue).trans (takes_finish hfinish)

end OpcodeAtlas.Json
