import OpcodeAtlas.Proofs.Json.Part

/-!
# OpcodeAtlas.Proofs.Json.Extent — a part is read alike wherever it stands

A part that can be read on its own is read the same way in front of whatever does not go on with a
number (`EndsNumber`), such as a comma, a colon or a closing mark: the reader takes the same bytes
and makes the same value, and leaves the rest to what comes behind. Rounds and levels that are left
over change nothing.

* `number_append`, `text_append`, `scalar_append` — parts that hold no others;
* `items_append`, `members_append`, `value_append` — lists and objects, by induction on their rounds
  and levels;
* `value_mono` — more rounds and levels for the same feed;
* `ReadsAs` — a text that holds one part with blanks around it, which is the same part to every
  reader (`ReadsAs.unique`) and in every place (`ReadsAs.append`).
-/

namespace OpcodeAtlas.Json

open Outcome (bind_eq_ok map_eq_ok)

variable {feed rest extra : Feed}

/-! ## Blanks and words -/

/-- Where something stands behind the blanks, it stands there in front of anything. -/
theorem skipBlank_append {item : Option UInt8} {more : Feed}
    (h : skipBlank feed = .ok (item :: more)) :
    skipBlank (feed ++ extra) = .ok (item :: (more ++ extra)) := by
  rcases skipBlank_eq_ok h with ⟨blanks, hblanks, rfl, hfirst⟩
  rcases hfirst item rfl with ⟨b, rfl, hb⟩
  rw [List.append_assoc, skipBlank_blanks hblanks]
  exact skipBlank_of_not_blank hb _

/-- Where nothing does, what comes behind is looked at. -/
theorem skipBlank_append_of_end (h : skipBlank feed = .ok []) (extra : Feed) :
    skipBlank (feed ++ extra) = skipBlank extra := by
  rcases skipBlank_eq_ok h with ⟨blanks, hblanks, rfl, -⟩
  rw [List.append_nil, skipBlank_blanks hblanks]

theorem expect_append {word : List UInt8} (h : expect word feed = .ok rest) :
    expect word (feed ++ extra) = .ok (rest ++ extra) := by
  induction word generalizing feed with
  | nil =>
    cases h
    rfl
  | cons wanted others ih =>
    cases feed with
    | nil => cases h
    | cons item more =>
      cases item with
      | none => cases h
      | some b =>
        rw [List.cons_append, expect]
        rw [expect] at h
        split at h
        · rename_i hb
          rw [if_pos hb]
          exact ih h
        · cases h

/-! ## Numbers -/

/-- Behind a number the feed ends, or a byte stands there that belongs to no number. -/
theorem endsNumber_cases (h : EndsNumber extra) :
    extra = [] ∨ ∃ b more, extra = some b :: more ∧ digit? b = none ∧ b ≠ 0x2E ∧
      isExponentMark b = false := by
  cases extra with
  | nil => exact .inl rfl
  | cons item more =>
    cases item with
    | none => cases h
    | some b => exact .inr ⟨b, more, rfl, h⟩

section Numbers

variable {negative down any : Bool} {significand e : Nat} {base exp : Int} {n : Number}

theorem finishReal_append (extra : Feed)
    (h : finishReal negative significand exp feed = .ok (n, rest)) :
    finishReal negative significand exp (feed ++ extra) = .ok (n, rest ++ extra) := by
  unfold finishReal at h ⊢
  split at h
  · cases h
    rfl
  · cases h

variable (hextra : EndsNumber extra)

include hextra

theorem skipDigits_append (h : skipDigits feed = .ok rest) :
    skipDigits (feed ++ extra) = .ok (rest ++ extra) := by
  induction feed with
  | nil =>
    cases h
    rcases endsNumber_cases hextra with rfl | ⟨b, more, rfl, hdigit, -⟩
    · rfl
    · simp [skipDigits, hdigit]
  | cons item more ih =>
    cases item with
    | none => cases h
    | some b =>
      rw [List.cons_append, skipDigits]
      rw [skipDigits] at h
      split at h
      · rename_i hdigit
        rw [if_pos hdigit]
        exact ih h
      · rename_i hdigit
        cases h
        rw [if_neg hdigit]
        rfl

theorem exponentDigits_append
    (h : exponentDigits negative significand base down e feed = .ok (n, rest)) :
    exponentDigits negative significand base down e (feed ++ extra) = .ok (n, rest ++ extra) := by
  induction feed generalizing e with
  | nil =>
    have hfinish := finishReal_append extra h
    rcases endsNumber_cases hextra with rfl | ⟨b, more, rfl, hdigit, -⟩
    · exact hfinish
    · rw [List.nil_append, exponentDigits]
      simp only [hdigit]
      exact hfinish
  | cons item more ih =>
    cases item with
    | none => cases h
    | some b =>
      rw [List.cons_append, exponentDigits]
      rw [exponentDigits] at h
      split at h
      · split at h
        · rename_i hfits
          rw [if_pos hfits]
          exact ih h
        · rename_i hfits
          rw [if_neg hfits]
          split at h
          · cases h
          · rename_i hsmall
            rw [if_neg hsmall]
            rcases map_eq_ok.1 h with ⟨behind, hskip, heq⟩
            cases heq
            rw [skipDigits_append hextra hskip]
            rfl
      · exact finishReal_append _ h

theorem unsignedExponent_append
    (h : unsignedExponent negative significand base down feed = .ok (n, rest)) :
    unsignedExponent negative significand base down (feed ++ extra) = .ok (n, rest ++ extra) := by
  cases feed with
  | nil => cases h
  | cons item more =>
    cases item with
    | none => cases h
    | some b =>
      rw [List.cons_append, unsignedExponent]
      rw [unsignedExponent] at h
      split at h
      · exact exponentDigits_append hextra h
      · cases h

theorem exponent_append (h : exponent negative significand base feed = .ok (n, rest)) :
    exponent negative significand base (feed ++ extra) = .ok (n, rest ++ extra) := by
  rcases bind_eq_ok.1 h with ⟨next, hpeek, h⟩
  rcases peek_cases hpeek with ⟨rfl, rfl⟩ | ⟨b, more, rfl, rfl⟩
  · cases h
  · rw [List.cons_append, exponent, peek, Outcome.ok_bind]
    split at h
    · rename_i hsign
      cases hsign
      exact unsignedExponent_append hextra h
    · rename_i hsign
      cases hsign
      exact unsignedExponent_append hextra h
    · exact unsignedExponent_append hextra h

theorem afterFraction_append (h : afterFraction negative significand base feed = .ok (n, rest)) :
    afterFraction negative significand base (feed ++ extra) = .ok (n, rest ++ extra) := by
  rcases bind_eq_ok.1 h with ⟨next, hpeek, h⟩
  rcases peek_cases hpeek with ⟨rfl, rfl⟩ | ⟨b, more, rfl, rfl⟩
  · -- At the end of the feed the number ends, and so it does in front of what is behind.
    have hfinish := finishReal_append extra h
    rcases endsNumber_cases hextra with rfl | ⟨b, more, rfl, -, -, hmark⟩
    · exact hfinish
    · rw [List.nil_append, afterFraction, peek, Outcome.ok_bind]
      simp only [hmark]
      exact hfinish
  · rw [List.cons_append, afterFraction, peek, Outcome.ok_bind]
    dsimp only at h ⊢
    split at h
    · rename_i hmark
      rw [if_pos hmark]
      exact exponent_append hextra h
    · rename_i hmark
      rw [if_neg hmark]
      exact finishReal_append _ h

theorem fraction_finish_append
    (h : fraction.finish negative significand base any feed = .ok (n, rest)) :
    fraction.finish negative significand base any (feed ++ extra) = .ok (n, rest ++ extra) := by
  unfold fraction.finish at h ⊢
  split at h
  · rename_i hany
    rw [if_pos hany]
    exact afterFraction_append hextra h
  · cases h

theorem fraction_append (h : fraction negative significand base any feed = .ok (n, rest)) :
    fraction negative significand base any (feed ++ extra) = .ok (n, rest ++ extra) := by
  induction feed generalizing significand base any with
  | nil =>
    have hfinish := fraction_finish_append hextra h
    rcases endsNumber_cases hextra with rfl | ⟨b, more, rfl, hdigit, -⟩
    · exact hfinish
    · rw [List.nil_append, fraction]
      simp only [hdigit]
      exact hfinish
  | cons item more ih =>
    cases item with
    | none => cases h
    | some b =>
      rw [List.cons_append, fraction]
      rw [fraction] at h
      split at h
      · split at h
        · rename_i hfits
          rw [if_pos hfits]
          exact ih h
        · rename_i hfits
          rw [if_neg hfits]
          rcases bind_eq_ok.1 h with ⟨behind, hskip, h⟩
          exact bind_eq_ok.2 ⟨_, skipDigits_append hextra hskip, afterFraction_append hextra h⟩
      · exact fraction_finish_append hextra h

theorem excessDigits_append (h : excessDigits negative significand base feed = .ok (n, rest)) :
    excessDigits negative significand base (feed ++ extra) = .ok (n, rest ++ extra) := by
  induction feed generalizing base with
  | nil =>
    have hfinish := finishReal_append extra h
    rcases endsNumber_cases hextra with rfl | ⟨b, more, rfl, hdigit, hpoint, hmark⟩
    · exact hfinish
    · rw [List.nil_append, excessDigits]
      simp only [hdigit, hmark, if_neg hpoint]
      exact hfinish
  | cons item more ih =>
    cases item with
    | none => cases h
    | some b =>
      rw [List.cons_append, excessDigits]
      rw [excessDigits] at h
      split at h
      · rename_i hdigit
        rw [if_pos hdigit]
        exact ih h
      · rename_i hdigit
        rw [if_neg hdigit]
        split at h
        · rename_i hpoint
          rw [if_pos hpoint]
          exact fraction_append hextra h
        · rename_i hpoint
          rw [if_neg hpoint]
          split at h
          · rename_i hmark
            rw [if_pos hmark]
            exact exponent_append hextra h
          · rename_i hmark
            rw [if_neg hmark]
            exact finishReal_append _ h

theorem afterInteger_append (h : afterInteger negative significand feed = .ok (n, rest)) :
    afterInteger negative significand (feed ++ extra) = .ok (n, rest ++ extra) := by
  rcases bind_eq_ok.1 h with ⟨next, hpeek, h⟩
  rcases peek_cases hpeek with ⟨rfl, rfl⟩ | ⟨b, more, rfl, rfl⟩
  · cases h
    rcases endsNumber_cases hextra with rfl | ⟨b, more, rfl, -, hpoint, hmark⟩
    · rfl
    · rw [List.nil_append, afterInteger, peek, Outcome.ok_bind]
      simp only [if_neg hpoint, hmark]
      rfl
  · rw [List.cons_append, afterInteger, peek, Outcome.ok_bind]
    dsimp only at h ⊢
    split at h
    · rename_i hpoint
      rw [if_pos hpoint]
      exact fraction_append hextra h
    · rename_i hpoint
      rw [if_neg hpoint]
      split at h
      · rename_i hmark
        rw [if_pos hmark]
        exact exponent_append hextra h
      · rename_i hmark
        rw [if_neg hmark]
        cases h
        rfl

theorem integerDigits_append (h : integerDigits negative significand feed = .ok (n, rest)) :
    integerDigits negative significand (feed ++ extra) = .ok (n, rest ++ extra) := by
  induction feed generalizing significand with
  | nil =>
    have hafter := afterInteger_append hextra h
    rcases endsNumber_cases hextra with rfl | ⟨b, more, rfl, hdigit, -⟩
    · exact hafter
    · rw [List.nil_append, integerDigits]
      simp only [hdigit]
      exact hafter
  | cons item more ih =>
    cases item with
    | none => cases h
    | some b =>
      rw [List.cons_append, integerDigits]
      rw [integerDigits] at h
      split at h
      · split at h
        · rename_i hfits
          rw [if_pos hfits]
          exact ih h
        · rename_i hfits
          rw [if_neg hfits]
          exact excessDigits_append hextra h
      · exact afterInteger_append hextra h

theorem number_append (h : number negative feed = .ok (n, rest)) :
    number negative (feed ++ extra) = .ok (n, rest ++ extra) := by
  cases feed with
  | nil => cases h
  | cons item more =>
    cases item with
    | none => cases h
    | some b =>
      rw [List.cons_append, number]
      rw [number] at h
      split at h
      · cases h
      · -- No other digit follows a leading zero, whatever stands behind.
        rcases bind_eq_ok.1 h with ⟨next, hpeek, h⟩
        rcases peek_cases hpeek with ⟨rfl, rfl⟩ | ⟨b', more', rfl, rfl⟩
        · have hafter := afterInteger_append hextra h
          rcases endsNumber_cases hextra with rfl | ⟨b', more, rfl, hdigit, -⟩
          · exact hafter
          · rw [List.nil_append, peek, Outcome.ok_bind]
            simp only [hdigit]
            exact hafter
        · rw [List.cons_append, peek, Outcome.ok_bind]
          dsimp only at h ⊢
          split at h
          · cases h
          · rename_i hdigit
            rw [if_neg hdigit]
            exact afterInteger_append hextra h
      · exact integerDigits_append hextra h

end Numbers

/-! ## Texts -/

theorem textBytes_append {state : Escape} {found bytes : List UInt8}
    (h : textBytes state found feed = .ok (bytes, rest)) :
    textBytes state found (feed ++ extra) = .ok (bytes, rest ++ extra) := by
  induction feed generalizing state found with
  | nil => cases h
  | cons item more ih =>
    cases item with
    | none => cases h
    | some b =>
      rw [List.cons_append, textBytes]
      rw [textBytes] at h
      split at h
      · rename_i hclosing
        rw [if_pos hclosing]
        cases h
        rfl
      · rename_i hopen
        rw [if_neg hopen]
        cases hstep : state.step b with
        | error fault =>
          rw [hstep] at h
          cases h
        | ok r =>
          rw [hstep] at h
          exact ih h

theorem text_append {s : String} (h : text feed = .ok (s, rest)) :
    text (feed ++ extra) = .ok (s, rest ++ extra) := by
  rcases bind_eq_ok.1 h with ⟨⟨bytes, behind⟩, hbytes, h⟩
  refine bind_eq_ok.2 ⟨_, textBytes_append hbytes, ?_⟩
  dsimp only at h ⊢
  split at h
  · cases h
    rfl
  · cases h

theorem scalar_append (hextra : EndsNumber extra) {b : UInt8} {more : Feed} {v : Value}
    (h : scalar b (some b :: more) = .ok (v, rest)) :
    scalar b (some b :: (more ++ extra)) = .ok (v, rest ++ extra) := by
  have hword : ∀ {word : List UInt8} {v' : Value},
      (expect word more).map (v', ·) = .ok (v, rest) →
        (expect word (more ++ extra)).map (v', ·) = .ok (v, rest ++ extra) := by
    intro word v' h
    rcases map_eq_ok.1 h with ⟨behind, hexpect, heq⟩
    cases heq
    exact map_eq_ok.2 ⟨_, expect_append hexpect, rfl⟩
  have hpart : ∀ {α : Type} {part part' : Except Failure (α × Feed)} {f : α × Feed → Value × Feed},
      (∀ a r, f (a, r ++ extra) = ((f (a, r)).1, (f (a, r)).2 ++ extra)) →
        (∀ a r, part = .ok (a, r) → part' = .ok (a, r ++ extra)) →
          part.map f = .ok (v, rest) → part'.map f = .ok (v, rest ++ extra) := by
    intro α part part' f hf hsame h
    rcases map_eq_ok.1 h with ⟨⟨a, behind⟩, hpart, heq⟩
    refine map_eq_ok.2 ⟨_, hsame a behind hpart, ?_⟩
    rw [hf, heq]
  unfold scalar at h ⊢
  split at h
  · rename_i hb
    rw [if_pos hb]
    exact hword h
  rename_i hb
  rw [if_neg hb]
  split at h
  · rename_i hb
    rw [if_pos hb]
    exact hword h
  rename_i hb
  rw [if_neg hb]
  split at h
  · rename_i hb
    rw [if_pos hb]
    exact hword h
  rename_i hb
  rw [if_neg hb]
  split at h
  · rename_i hb
    rw [if_pos hb]
    exact hpart (fun _ _ => rfl) (fun _ _ => number_append hextra) h
  rename_i hb
  rw [if_neg hb]
  split at h
  · rename_i hb
    rw [if_pos hb]
    exact hpart (fun _ _ => rfl) (fun _ _ => number_append hextra) h
  rename_i hb
  rw [if_neg hb]
  split at h
  · rename_i hb
    rw [if_pos hb]
    exact hpart (fun _ _ => rfl) (fun _ _ => text_append) h
  · cases h

/-! ## Marks -/

section Marks

variable {first : Bool}

theorem closeList_append (h : closeList feed = .ok rest) :
    closeList (feed ++ extra) = .ok (rest ++ extra) :=
  closeList_iff.2 (skipBlank_append (closeList_iff.1 h))

theorem closeObject_append (h : closeObject feed = .ok rest) :
    closeObject (feed ++ extra) = .ok (rest ++ extra) :=
  closeObject_iff.2 (skipBlank_append (closeObject_iff.1 h))

theorem colon_append (h : colon feed = .ok rest) :
    colon (feed ++ extra) = .ok (rest ++ extra) :=
  colon_iff.2 (skipBlank_append (colon_iff.1 h))

theorem nextItem?_none_append (h : nextItem? first feed = .ok (none, rest)) :
    nextItem? first (feed ++ extra) = .ok (none, rest ++ extra) := by
  rcases nextItem?_none_iff.1 h with ⟨hskip, more, rfl⟩
  exact nextItem?_none_iff.2 ⟨skipBlank_append hskip, more ++ extra, rfl⟩

theorem nextItem?_some_append {start : Feed} (h : nextItem? first feed = .ok (some start, start)) :
    nextItem? first (feed ++ extra) = .ok (some (start ++ extra), start ++ extra) := by
  rcases nextItem?_some_iff.1 h with ⟨⟨b, more, rfl, hb⟩, hstart⟩
  refine nextItem?_some_iff.2 ⟨⟨b, more ++ extra, rfl, hb⟩, ?_⟩
  cases first with
  | true => exact skipBlank_append hstart
  | false =>
    rcases hstart with ⟨behind, hskip, hplace⟩
    exact ⟨behind ++ extra, skipBlank_append hskip, skipBlank_append hplace⟩

theorem nextKey?_none_append (h : nextKey? first feed = .ok (none, rest)) :
    nextKey? first (feed ++ extra) = .ok (none, rest ++ extra) := by
  rcases nextKey?_none_iff.1 h with ⟨hskip, more, rfl⟩
  exact nextKey?_none_iff.2 ⟨skipBlank_append hskip, more ++ extra, rfl⟩

theorem nextKey?_some_append {key : String} (h : nextKey? first feed = .ok (some key, rest)) :
    nextKey? first (feed ++ extra) = .ok (some key, rest ++ extra) := by
  rcases nextKey?_some_iff.1 h with ⟨inner, htext, hstart⟩
  refine nextKey?_some_iff.2 ⟨inner ++ extra, text_append htext, ?_⟩
  cases first with
  | true => exact skipBlank_append hstart
  | false =>
    rcases hstart with ⟨behind, hskip, hplace⟩
    exact ⟨behind ++ extra, skipBlank_append hskip, skipBlank_append hplace⟩

end Marks

/-! ## Lists and objects -/

/-- What one step reads the other one reads in front of the same rest. -/
def Grows {α : Type} (step step' : Step α) (extra : Feed) : Prop :=
  ∀ {feed rest : Feed} {found : α}, step feed = .ok (found, rest) →
    step' (feed ++ extra) = .ok (found, rest ++ extra)

section Rounds

variable {α : Type} {item item' : Step α} (hitem : Grows item item' extra)

include hitem

theorem items_append {bound bound' : Nat} (hbound : bound ≤ bound') (first : Bool) :
    Grows (items item bound first) (items item' bound' first) extra := by
  intro feed rest found h
  -- A round more takes an item more; the rounds that are left over are not begun.
  induction bound generalizing bound' first feed found with
  | zero => cases h
  | succ bound ih =>
    obtain ⟨bound', rfl⟩ := Nat.exists_eq_add_one.2 (Nat.lt_of_lt_of_le (Nat.succ_pos _) hbound)
    rcases items_succ_iff.1 h with ⟨hnext, rfl⟩ |
      ⟨start, behind, x, others, hnext, hx, hothers, rfl⟩
    · exact items_succ_iff.2 (.inl ⟨nextItem?_none_append hnext, rfl⟩)
    · have hrest := ih (Nat.le_of_succ_le_succ hbound) false hothers
      exact items_succ_iff.2 (.inr ⟨start ++ extra, behind ++ extra, x, others,
        nextItem?_some_append hnext, hitem hx, hrest, rfl⟩)

theorem members_append {bound bound' : Nat} (hbound : bound ≤ bound') (first : Bool) :
    Grows (members item bound first) (members item' bound' first) extra := by
  intro feed rest found h
  induction bound generalizing bound' first feed found with
  | zero => cases h
  | succ bound ih =>
    obtain ⟨bound', rfl⟩ := Nat.exists_eq_add_one.2 (Nat.lt_of_lt_of_le (Nat.succ_pos _) hbound)
    rcases members_succ_iff.1 h with ⟨hnext, rfl⟩ |
      ⟨key, place, start, behind, x, others, hnext, hcolon, hx, hothers, rfl⟩
    · exact members_succ_iff.2 (.inl ⟨nextKey?_none_append hnext, rfl⟩)
    · have hrest := ih (Nat.le_of_succ_le_succ hbound) false hothers
      refine members_succ_iff.2 (.inr
        ⟨key, place ++ extra, start ++ extra, behind ++ extra, x, others, ?_⟩)
      exact ⟨nextKey?_some_append hnext, colon_append hcolon, hitem hx, hrest, rfl⟩

end Rounds

/-- A part is read alike in front of whatever does not go on with a number, with any more rounds and
levels. -/
theorem value_append (hextra : EndsNumber extra) {bound bound' depth depth' : Nat}
    (hbound : bound ≤ bound') (hdepth : depth ≤ depth') :
    Grows (value bound depth) (value bound' depth') extra := by
  induction depth generalizing depth' with
  | zero =>
    intro feed rest v h
    cases value_iff_part.1 h with
    | scalar hskip hmark hscalar =>
      exact value_iff_part.2
        (.scalar (skipBlank_append hskip) hmark (scalar_append hextra hscalar))
  | succ depth ih =>
    intro feed rest v h
    obtain ⟨depth', rfl⟩ := Nat.exists_eq_add_one.2 (Nat.lt_of_lt_of_le (Nat.succ_pos _) hdepth)
    have hitem : Grows (value bound depth) (value bound' depth') extra :=
      ih (Nat.le_of_succ_le_succ hdepth)
    cases value_iff_part.1 h with
    | list hskip hitems hclose =>
      exact value_iff_part.2 (.list (skipBlank_append hskip)
        (items_append hitem hbound true hitems) (closeList_append hclose))
    | object hskip hmembers hclose =>
      exact value_iff_part.2 (.object (skipBlank_append hskip)
        (members_append hitem hbound true hmembers) (closeObject_append hclose))
    | scalar hskip hmark hscalar =>
      exact value_iff_part.2
        (.scalar (skipBlank_append hskip) hmark (scalar_append hextra hscalar))

/-- More rounds and levels change nothing in what was read with fewer. -/
theorem value_mono {bound bound' depth depth' : Nat} (hbound : bound ≤ bound')
    (hdepth : depth ≤ depth') {v : Value} (h : value bound depth feed = .ok (v, rest)) :
    value bound' depth' feed = .ok (v, rest) := by
  have hends : EndsNumber [] := trivial
  have hgrown := value_append hends hbound hdepth h
  rwa [List.append_nil, List.append_nil] at hgrown

/-! ## Texts that hold one part -/

/-- No blank goes on with a number. -/
theorem endsNumber_blanks {blanks : List UInt8} (h : ∀ b ∈ blanks, isBlankByte b = true) :
    EndsNumber (.ofBytes blanks) := by
  cases blanks with
  | nil => trivial
  | cons b others =>
    have hblank := h b List.mem_cons_self
    simp only [isBlankByte, Bool.or_eq_true, beq_iff_eq] at hblank
    rcases hblank with ((rfl | rfl) | rfl) | rfl
    all_goals exact ⟨by decide, by decide, by decide⟩

/-- The bytes are a document part of at most `depth` levels, with blanks around it. -/
def ReadsAs (depth : Nat) (bytes : List UInt8) (v : Value) : Prop :=
  ∃ rest, value (bytes.length + 1) depth (.ofBytes bytes) = .ok (v, rest) ∧ finish rest = .ok ()

/-- A document is a part that may hold as many levels as there may be. -/
theorem document_iff_readsAs {bytes : List UInt8} {v : Value} :
    document (.ofBytes bytes) = .ok v ↔ ReadsAs maxDepth bytes v := by
  have hlength : (Feed.ofBytes bytes).length = bytes.length := List.length_map _
  rw [document, bind_eq_ok, hlength]
  constructor
  · intro h
    rcases h with ⟨⟨v', rest⟩, hvalue, h⟩
    rcases bind_eq_ok.1 h with ⟨_, hfinish, heq⟩
    cases heq
    exact ⟨rest, hvalue, hfinish⟩
  · intro h
    rcases h with ⟨rest, hvalue, hfinish⟩
    exact ⟨_, hvalue, bind_eq_ok.2 ⟨_, hfinish, rfl⟩⟩

namespace ReadsAs

variable {depth depth' : Nat} {bytes : List UInt8} {v v' : Value}

theorem mono (hdepth : depth ≤ depth') (h : ReadsAs depth bytes v) : ReadsAs depth' bytes v := by
  rcases h with ⟨rest, hvalue, hfinish⟩
  exact ⟨rest, value_mono (Nat.le_refl _) hdepth hvalue, hfinish⟩

/-- However many levels there may be, the part is the same. -/
theorem unique (h : ReadsAs depth bytes v) (h' : ReadsAs depth' bytes v') : v = v' := by
  rcases h.mono (Nat.le_max_left depth depth') with ⟨rest, hvalue, -⟩
  rcases h'.mono (Nat.le_max_right depth depth') with ⟨rest', hvalue', -⟩
  cases hvalue.symm.trans hvalue'
  rfl

/-- The part stands in front of whatever does not go on with a number as it does on its own. -/
theorem append (h : ReadsAs depth bytes v) (hextra : EndsNumber extra) {bound : Nat}
    (hbound : bytes.length < bound) :
    ∃ rest, value bound depth (.ofBytes bytes ++ extra) = .ok (v, rest) ∧
      skipBlank rest = skipBlank extra := by
  rcases h with ⟨rest, hvalue, hfinish⟩
  exact ⟨rest ++ extra, value_append hextra hbound (Nat.le_refl _) hvalue,
    skipBlank_append_of_end (finish_iff.1 hfinish) extra⟩

/-- More blanks around it do not matter. -/
theorem blanks (h : ReadsAs depth bytes v) {front back : List UInt8}
    (hfront : ∀ b ∈ front, isBlankByte b = true) (hback : ∀ b ∈ back, isBlankByte b = true) :
    ReadsAs depth (front ++ bytes ++ back) v := by
  have hbound : bytes.length < (front ++ bytes ++ back).length + 1 := by
    simp only [List.length_append]
    omega
  rcases h.append (endsNumber_blanks hback) hbound with ⟨rest, hvalue, hrest⟩
  refine ⟨rest, ?_, finish_iff.2 ?_⟩
  · refine (value_congr ?_).trans hvalue
    rw [List.append_assoc, Feed.ofBytes_append, skipBlank_blanks hfront, Feed.ofBytes_append]
  · rw [hrest, ← List.append_nil (Feed.ofBytes back), skipBlank_blanks hback]
    rfl

end ReadsAs

end OpcodeAtlas.Json
