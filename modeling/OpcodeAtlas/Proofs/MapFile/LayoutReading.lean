import OpcodeAtlas.MapFile.LayoutText
import OpcodeAtlas.Proofs.Json.Extent
import OpcodeAtlas.Proofs.MapFile.LayoutSchema

/-!
# OpcodeAtlas.Proofs.MapFile.LayoutReading — layouts in the order of their text

A layout that is read straight from text takes its members as they come and never makes a value of
the document. It takes the same bytes and accepts the same documents as reading the document first:

* `integer_eq_ok_iff`, `member_eq_ok_iff` — a member is read when the part there gives its number;
* `members_eq_ok_iff`, `items_of_items`, `items_of_draftOfItems` — all members of an object, and all
  items of a list, by induction on the rounds;
* `layout_eq_ok_iff`, `ofText_eq_ok_iff` — so a text describes the layout that its document shows.
-/

namespace OpcodeAtlas.LayoutText

open Json
open Outcome (bind_eq_ok map_eq_ok)

variable {feed rest : Feed} {depth : Nat}

@[simp]
theorem reading_eq_ok_iff {α : Type} {step : Except Failure α} {a : α} :
    reading step = .ok a ↔ step = .ok a := Outcome.mapError_eq_ok

@[simp]
theorem checking_eq_ok_iff {α : Type} {check : Except Mismatch α} {a : α} :
    checking check = .ok a ↔ check = .ok a := Outcome.mapError_eq_ok

/-- What is refused is never read. -/
theorem refuse_ne_ok {α : Type} {wanted : Wanted} {a : α} : refuse wanted feed ≠ .ok a := by
  intro h
  unfold refuse at h
  split at h
  · cases h
  · cases h
  · rcases bind_eq_ok.1 h with ⟨found, -, h⟩
    cases h
  · cases h

/-! ## Members -/

theorem scalar_n (more : Feed) :
    scalar 0x6E (some 0x6E :: more) = (expect [0x75, 0x6C, 0x6C] more).map (.null, ·) := rfl

/-- An integer is read when the part there is an integer of the kind asked for. -/
theorem integer_eq_ok_iff (bound depth : Nat) {kind : IntegerKind} {n : Int} :
    integer kind feed = .ok (n, rest) ↔
      ∃ v, value bound depth feed = .ok (v, rest) ∧ integerOf kind v = .ok n := by
  constructor
  · intro h
    rcases bind_eq_ok.1 h with ⟨behind, hskip, h⟩
    rw [reading_eq_ok_iff] at hskip
    split at h
    · rename_i b more
      split at h
      · rename_i hminus
        subst hminus
        rcases bind_eq_ok.1 h with ⟨⟨x, last⟩, hnumber, h⟩
        rcases bind_eq_ok.1 h with ⟨m, hcheck, h⟩
        rw [reading_eq_ok_iff] at hnumber
        rw [checking_eq_ok_iff] at hcheck
        cases h
        refine ⟨.number x, value_iff_part.2 (.scalar hskip (by decide) ?_), hcheck⟩
        rw [scalar_minus, hnumber]
        rfl
      · split at h
        · rename_i hdigit
          rcases bind_eq_ok.1 h with ⟨⟨x, last⟩, hnumber, h⟩
          rcases bind_eq_ok.1 h with ⟨m, hcheck, h⟩
          rw [reading_eq_ok_iff] at hnumber
          rw [checking_eq_ok_iff] at hcheck
          cases h
          rcases Option.isSome_iff_exists.1 hdigit with ⟨d, hd⟩
          have hmark : ¬(b = 0x5B ∨ b = 0x7B) := by
            rintro (rfl | rfl) <;> exact absurd hdigit (by decide)
          refine ⟨.number x, value_iff_part.2 (.scalar hskip hmark ?_), hcheck⟩
          rw [scalar_digit hd, hnumber]
          rfl
        · exact absurd h refuse_ne_ok
    · cases h
  · rintro ⟨v, hvalue, hinteger⟩
    rcases MapFile.integerOf_eq_ok_iff.1 hinteger with ⟨rfl, -⟩
    cases value_iff_part.1 hvalue with
    | @scalar _ _ more _ b _ hskip hmark hscalar =>
      refine bind_eq_ok.2 ⟨_, reading_eq_ok_iff.2 hskip, ?_⟩
      dsimp only
      by_cases hminus : b = 0x2D
      · subst hminus
        rw [scalar_minus] at hscalar
        rcases map_eq_ok.1 hscalar with ⟨⟨x, last⟩, hnumber, heq⟩
        cases heq
        rw [if_pos rfl]
        exact bind_eq_ok.2 ⟨_, reading_eq_ok_iff.2 hnumber,
          bind_eq_ok.2 ⟨n, checking_eq_ok_iff.2 hinteger, rfl⟩⟩
      · cases hd : digit? b with
        | none => exact absurd hscalar (scalar_ne_number hd hminus _)
        | some d =>
          rw [scalar_digit hd] at hscalar
          rcases map_eq_ok.1 hscalar with ⟨⟨x, last⟩, hnumber, heq⟩
          cases heq
          rw [if_neg hminus, if_pos (by simp)]
          exact bind_eq_ok.2 ⟨_, reading_eq_ok_iff.2 hnumber,
            bind_eq_ok.2 ⟨n, checking_eq_ok_iff.2 hinteger, rfl⟩⟩

/-- At a place where a part begins, the word stands for null and nothing else does. -/
theorem value_null_iff {bound depth : Nat} {b : UInt8} {more : Feed}
    (hskip : skipBlank feed = .ok (some b :: more)) :
    value bound depth feed = .ok (.null, rest) ↔
      b = 0x6E ∧ expect [0x75, 0x6C, 0x6C] more = .ok rest := by
  constructor
  · intro h
    cases value_iff_part.1 h with
    | scalar hskip' hmark hscalar =>
      rw [hskip] at hskip'
      cases hskip'
      rcases scalar_cases hscalar with ⟨rfl, -⟩ | ⟨_, ⟨⟩⟩ | ⟨-, _, ⟨⟩⟩ | ⟨-, _, ⟨⟩⟩
      rcases map_eq_ok.1 hscalar with ⟨last, hexpect, heq⟩
      cases heq
      exact ⟨rfl, hexpect⟩
  · rintro ⟨rfl, hexpect⟩
    refine value_iff_part.2 (.scalar hskip (by decide) ?_)
    rw [scalar_n, hexpect]
    rfl

/-- A member is read when the part there gives its number. -/
theorem member_eq_ok_iff (bound depth : Nat) {field : Layout.Field} {n : Option Int} :
    member field feed = .ok (n, rest) ↔
      ∃ v, value bound depth feed = .ok (v, rest) ∧ field.numberOf v = .ok n := by
  constructor
  · intro h
    rcases bind_eq_ok.1 h with ⟨behind, hskip, h⟩
    rw [reading_eq_ok_iff] at hskip
    split at h
    · rcases bind_eq_ok.1 h with ⟨last, hexpect, h⟩
      rw [reading_eq_ok_iff] at hexpect
      cases h
      exact ⟨.null, (value_null_iff hskip).2 ⟨rfl, hexpect⟩, rfl⟩
    · rcases bind_eq_ok.1 h with ⟨⟨m, last⟩, hinteger, h⟩
      cases h
      rcases (integer_eq_ok_iff bound depth).1 hinteger with ⟨v, hvalue, hm⟩
      exact ⟨v, (value_skipBlank hskip).trans hvalue,
        Layout.Field.numberOf_eq_ok_iff.2 (Layout.Field.integerOf_eq_ok_iff.1 hm)⟩
  · rintro ⟨v, hvalue, hn⟩
    rcases skipBlank_of_value hvalue with ⟨b, more, hskip⟩
    have hgives := Layout.Field.numberOf_eq_ok_iff.1 hn
    refine bind_eq_ok.2 ⟨_, reading_eq_ok_iff.2 hskip, ?_⟩
    split
    · rename_i heq
      cases heq
      -- A part that begins with this letter is null.
      cases value_iff_part.1 hvalue with
      | list hskip' => cases hskip.symm.trans hskip'
      | object hskip' => cases hskip.symm.trans hskip'
      | scalar hskip' _ hscalar =>
        cases hskip.symm.trans hskip'
        rcases map_eq_ok.1 hscalar with ⟨last, hexpect, heq⟩
        cases heq
        cases hn
        exact bind_eq_ok.2 ⟨_, reading_eq_ok_iff.2 hexpect, rfl⟩
    · rename_i hother
      cases n with
      | some m =>
        have hm := Layout.Field.integerOf_eq_ok_iff.2 hgives
        have hinteger := (integer_eq_ok_iff bound depth).2
          ⟨v, (value_skipBlank hskip).symm.trans hvalue, hm⟩
        exact bind_eq_ok.2 ⟨_, hinteger, rfl⟩
      | none =>
        cases hgives with
        | null hfield =>
          rcases (value_null_iff hskip).1 hvalue with ⟨rfl, -⟩
          exact absurd rfl (hother more hfield)

/-- The members of an object are read when those of the document are and make the same draft. -/
theorem members_eq_ok_iff (depth : Nat) {draft draft' : LayoutDraft} {bound limit : Nat}
    {first : Bool} :
    members draft bound first feed = .ok (draft', rest) ↔
      ∃ found, Json.members (value limit depth) bound first feed = .ok (found, rest) ∧
        Layout.draftOfMembers draft found = .ok draft' := by
  induction bound generalizing draft first feed with
  | zero =>
    constructor
    · intro h
      cases h
    · rintro ⟨found, h, -⟩
      cases h
  | succ bound ih =>
    constructor
    · intro h
      rcases bind_eq_ok.1 h with ⟨⟨key?, place⟩, hnext, h⟩
      rw [reading_eq_ok_iff] at hnext
      cases key? with
      | none =>
        cases h
        exact ⟨[], members_succ_iff.2 (.inl ⟨hnext, rfl⟩), rfl⟩
      | some key =>
        rcases bind_eq_ok.1 h with ⟨field, hclaim, h⟩
        rcases bind_eq_ok.1 h with ⟨start, hcolon, h⟩
        rcases bind_eq_ok.1 h with ⟨⟨n, behind⟩, hmember, h⟩
        rw [checking_eq_ok_iff] at hclaim
        rw [reading_eq_ok_iff] at hcolon
        rcases (member_eq_ok_iff limit depth).1 hmember with ⟨v, hv, hn⟩
        rcases ih.1 h with ⟨others, hothers, hdraft⟩
        refine ⟨(key, v) :: others, members_succ_iff.2
          (.inr ⟨key, place, start, behind, v, others, hnext, hcolon, hv, hothers, rfl⟩), ?_⟩
        exact bind_eq_ok.2 ⟨field, hclaim, bind_eq_ok.2 ⟨n, hn, hdraft⟩⟩
    · rintro ⟨found, h, hdraft⟩
      rcases members_succ_iff.1 h with ⟨hnext, rfl⟩ |
        ⟨key, place, start, behind, v, others, hnext, hcolon, hv, hothers, rfl⟩
      · cases hdraft
        exact bind_eq_ok.2 ⟨_, reading_eq_ok_iff.2 hnext, rfl⟩
      · rcases bind_eq_ok.1 hdraft with ⟨field, hclaim, hdraft⟩
        rcases bind_eq_ok.1 hdraft with ⟨n, hn, hdraft⟩
        have hmember := (member_eq_ok_iff limit depth).2 ⟨v, hv, hn⟩
        refine bind_eq_ok.2 ⟨_, reading_eq_ok_iff.2 hnext, ?_⟩
        refine bind_eq_ok.2 ⟨field, checking_eq_ok_iff.2 hclaim, ?_⟩
        refine bind_eq_ok.2 ⟨start, reading_eq_ok_iff.2 hcolon, ?_⟩
        exact bind_eq_ok.2 ⟨_, hmember, ih.2 ⟨others, hothers, hdraft⟩⟩

/-! ## Lists -/

/-- In front of the end of a list there is no further item. -/
theorem nextItem?_of_closeList {first : Bool} {last : Feed} (h : closeList feed = .ok last) :
    nextItem? first feed = .ok (none, some 0x5D :: last) ∧ feed ≠ [] := by
  have hskip := closeList_iff.1 h
  refine ⟨nextItem?_none_iff.2 ⟨hskip, last, rfl⟩, ?_⟩
  rintro rfl
  cases hskip

/-- The end that is found in front of the next item is the end of the list. -/
theorem closeList_of_nextItem? {first : Bool} (h : nextItem? first feed = .ok (none, rest))
    (last : Feed) : closeList feed = .ok last ↔ closeList rest = .ok last := by
  have hskip := (nextItem?_none_iff.1 h).1
  rw [closeList_iff, closeList_iff, hskip, skipBlank_fixed hskip]

/-- Every item but the first stands behind a comma. -/
theorem nextItem?_length {first : Bool} {start : Feed}
    (h : nextItem? first feed = .ok (some start, start)) :
    start.length ≤ feed.length ∧ (first = false → start.length < feed.length) := by
  refine ⟨((takes_nextItem? h).1).length_le, ?_⟩
  rintro rfl
  rcases (nextItem?_some_iff.1 h).2 with ⟨more, hskip, hstart⟩
  have hcomma := (takes_skipBlank hskip).length_le
  have hbehind := (takes_skipBlank hstart).length_le
  rw [List.length_cons] at hcomma
  omega

/-- The items of a list are those of the document, which is left enough rounds: one for each byte,
and one more in front of the first item. -/
theorem items_of_items {fields : List Layout.Field} {index bound : Nat} (limit depth : Nat)
    {draft : LayoutDraft} {last : Feed} (h : items fields index feed = .ok (draft, rest))
    (hclose : closeList rest = .ok last)
    (hbound : feed.length < bound ∨ index ≠ 0 ∧ feed.length ≤ bound) :
    ∃ found mid, Json.items (value limit depth) bound (index == 0) feed = .ok (found, mid) ∧
      closeList mid = .ok last ∧ Layout.draftOfItems fields index found = .ok draft := by
  induction fields generalizing index bound feed draft with
  | nil =>
    cases h
    rcases nextItem?_of_closeList hclose with ⟨hnext, hne⟩
    have hlength : 0 < rest.length := List.length_pos_iff.2 hne
    obtain ⟨rounds, rfl⟩ : ∃ rounds, bound = rounds + 1 := ⟨bound - 1, by omega⟩
    exact ⟨[], some 0x5D :: last, items_succ_iff.2 (.inl ⟨hnext, rfl⟩), rfl, rfl⟩
  | cons field fields ih =>
    rcases bind_eq_ok.1 h with ⟨⟨start?, place⟩, hnext, h⟩
    rw [reading_eq_ok_iff] at hnext
    cases start? with
    | none =>
      dsimp only at h
      split at h <;> cases h
      rename_i hcount
      have hne : feed ≠ [] := by
        rintro rfl
        cases hnext
      have hlength : 0 < feed.length := List.length_pos_iff.2 hne
      obtain ⟨rounds, rfl⟩ : ∃ rounds, bound = rounds + 1 := ⟨bound - 1, by omega⟩
      exact ⟨[], rest, items_succ_iff.2 (.inl ⟨hnext, rfl⟩), hclose, if_pos hcount⟩
    | some start =>
      obtain rfl : start = place := (takes_nextItem? hnext).2 start rfl
      rcases bind_eq_ok.1 h with ⟨⟨n, behind⟩, hmember, h⟩
      rcases bind_eq_ok.1 h with ⟨⟨others, place⟩, hothers, h⟩
      cases h
      rcases (member_eq_ok_iff limit depth).1 hmember with ⟨v, hvalue, hn⟩
      have hstart := nextItem?_length hnext
      have hbehind := (takes_value _ _ hvalue).length_le
      have hrounds : start.length < bound := by
        rcases hbound with hfirst | ⟨hlater, hle⟩
        · omega
        · have hcomma := hstart.2 (beq_false_of_ne hlater)
          omega
      obtain ⟨rounds, rfl⟩ : ∃ rounds, bound = rounds + 1 := ⟨bound - 1, by omega⟩
      have hleft : behind.length ≤ rounds := by omega
      rcases ih hothers (.inr ⟨Nat.succ_ne_zero index, hleft⟩) with
        ⟨found, mid, hitems, hmid, hdraft⟩
      refine ⟨v :: found, mid, items_succ_iff.2
        (.inr ⟨start, behind, v, found, hnext, hvalue, hitems, rfl⟩), hmid, ?_⟩
      exact bind_eq_ok.2 ⟨n, hn, bind_eq_ok.2 ⟨others, hdraft, rfl⟩⟩

/-- What is made of the items of a document is read from the list. -/
theorem items_of_draftOfItems {fields : List Layout.Field} {index bound limit depth : Nat}
    {found : List Value} {draft : LayoutDraft}
    (h : Json.items (value limit depth) bound (index == 0) feed = .ok (found, rest))
    (hdraft : Layout.draftOfItems fields index found = .ok draft) :
    ∃ mid, items fields index feed = .ok (draft, mid) ∧
      ∀ last, closeList mid = .ok last ↔ closeList rest = .ok last := by
  induction fields generalizing index bound feed found draft with
  | nil =>
    rw [Layout.draftOfItems] at hdraft
    split at hdraft <;> cases hdraft
    rename_i hempty
    obtain rfl : found = [] := List.isEmpty_iff.1 hempty
    cases bound with
    | zero => cases h
    | succ bound =>
      rcases items_succ_iff.1 h with ⟨hnext, -⟩ | ⟨_, _, _, _, _, _, _, hfound⟩
      · exact ⟨feed, rfl, closeList_of_nextItem? hnext⟩
      · cases hfound
  | cons field fields ih =>
    cases bound with
    | zero => cases h
    | succ bound =>
      rcases items_succ_iff.1 h with ⟨hnext, rfl⟩ |
        ⟨start, behind, v, others, hnext, hvalue, hothers, rfl⟩
      · rw [Layout.draftOfItems] at hdraft
        split at hdraft <;> cases hdraft
        rename_i hcount
        refine ⟨rest, bind_eq_ok.2 ⟨_, reading_eq_ok_iff.2 hnext, ?_⟩, fun _ => Iff.rfl⟩
        exact if_pos hcount
      · rcases bind_eq_ok.1 hdraft with ⟨n, hn, hdraft⟩
        rcases bind_eq_ok.1 hdraft with ⟨draft', hdraft', heq⟩
        cases heq
        rcases ih hothers hdraft' with ⟨mid, hitems, hmid⟩
        have hmember := (member_eq_ok_iff limit depth).2 ⟨v, hvalue, hn⟩
        refine ⟨mid, bind_eq_ok.2 ⟨_, reading_eq_ok_iff.2 hnext, ?_⟩, hmid⟩
        exact bind_eq_ok.2 ⟨_, hmember, bind_eq_ok.2 ⟨_, hitems, rfl⟩⟩

/-! ## Layouts -/

/-- What is neither a list nor an object has not the shape of a layout. -/
theorem scalar_not_shaped {b : UInt8} {v : Value} (h : scalar b feed = .ok (v, rest)) :
    ¬Layout.Shaped v := by
  rcases scalar_cases h with ⟨-, rfl⟩ | ⟨_, rfl⟩ | ⟨-, _, rfl⟩ | ⟨-, _, rfl⟩
  all_goals exact id

/-- A layout is read when the part there is a list or an object that describes it. -/
theorem layout_eq_ok_iff {bound : Nat} (hbound : feed.length < bound) (depth : Nat) {l : Layout} :
    layout bound feed = .ok (l, rest) ↔
      ∃ v, value bound (depth + 1) feed = .ok (v, rest) ∧ Layout.ShownBy v l := by
  constructor
  · intro h
    rcases bind_eq_ok.1 h with ⟨behind, hskip, h⟩
    rw [reading_eq_ok_iff] at hskip
    have hbehind := (takes_skipBlank hskip).length_le
    split at h
    · rename_i more
      rcases bind_eq_ok.1 h with ⟨⟨draft, mid⟩, hitems, h⟩
      rcases bind_eq_ok.1 h with ⟨l', hfinish, h⟩
      rcases bind_eq_ok.1 h with ⟨last, hclose, h⟩
      rw [checking_eq_ok_iff] at hfinish
      rw [reading_eq_ok_iff] at hclose
      cases h
      have hmore : more.length < bound := by
        rw [List.length_cons] at hbehind
        omega
      rcases items_of_items bound depth hitems hclose (.inl hmore) with
        ⟨found, mid', hfound, hclose', hdraft⟩
      refine ⟨.list found, value_iff_part.2 (.list hskip hfound hclose'), ?_⟩
      exact Layout.shownBy_list_iff.1 (bind_eq_ok.2 ⟨draft, hdraft, hfinish⟩)
    · rename_i more
      rcases bind_eq_ok.1 h with ⟨⟨draft, mid⟩, hmembers, h⟩
      rcases bind_eq_ok.1 h with ⟨l', hfinish, h⟩
      rcases bind_eq_ok.1 h with ⟨last, hclose, h⟩
      rw [checking_eq_ok_iff] at hfinish
      rw [reading_eq_ok_iff] at hclose
      cases h
      rcases (members_eq_ok_iff depth).1 hmembers with ⟨found, hfound, hdraft⟩
      refine ⟨.object found, value_iff_part.2 (.object hskip hfound hclose), ?_⟩
      exact Layout.shownBy_object_iff.1 (bind_eq_ok.2 ⟨draft, hdraft, hfinish⟩)
    · exact absurd h refuse_ne_ok
  · rintro ⟨v, hvalue, hshown⟩
    cases value_iff_part.1 hvalue with
    | @list _ _ more mid _ found hskip hfound hclose =>
      rcases bind_eq_ok.1 (Layout.shownBy_list_iff.2 hshown) with ⟨draft, hdraft, hfinish⟩
      have hread : ∃ place, items Layout.Field.all 0 more = .ok (draft, place) ∧
          ∀ last, closeList place = .ok last ↔ closeList mid = .ok last :=
        items_of_draftOfItems hfound hdraft
      rcases hread with ⟨place, hitems, hplace⟩
      refine bind_eq_ok.2 ⟨_, reading_eq_ok_iff.2 hskip, ?_⟩
      refine bind_eq_ok.2 ⟨_, hitems, bind_eq_ok.2 ⟨l, checking_eq_ok_iff.2 hfinish, ?_⟩⟩
      exact bind_eq_ok.2 ⟨rest, reading_eq_ok_iff.2 ((hplace rest).2 hclose), rfl⟩
    | object hskip hfound hclose =>
      rcases bind_eq_ok.1 (Layout.shownBy_object_iff.2 hshown) with ⟨draft, hdraft, hfinish⟩
      have hmembers := (members_eq_ok_iff depth).2 ⟨_, hfound, hdraft⟩
      refine bind_eq_ok.2 ⟨_, reading_eq_ok_iff.2 hskip, ?_⟩
      refine bind_eq_ok.2 ⟨_, hmembers, bind_eq_ok.2 ⟨l, checking_eq_ok_iff.2 hfinish, ?_⟩⟩
      exact bind_eq_ok.2 ⟨rest, reading_eq_ok_iff.2 hclose, rfl⟩
    | scalar hskip hmark hscalar =>
      exact absurd hshown.shaped (scalar_not_shaped hscalar)

end OpcodeAtlas.LayoutText

namespace OpcodeAtlas

open Json LayoutText
open Outcome (bind_eq_ok)

/-- A text describes the layout that the part in it shows, however many levels of that are read. -/
theorem Layout.ofText_eq_ok_iff_readsAs (depth : Nat) {text : String} {l : Layout} :
    Layout.ofText text = .ok l ↔
      ∃ v, ReadsAs (depth + 1) (Text.utf8 text) v ∧ Layout.ShownBy v l := by
  have hlength : (Feed.ofBytes (Text.utf8 text)).length = (Text.utf8 text).length :=
    List.length_map _
  constructor
  · intro h
    rcases bind_eq_ok.1 h with ⟨⟨l', rest⟩, hlayout, h⟩
    rcases bind_eq_ok.1 h with ⟨_, hfinish, h⟩
    rw [reading_eq_ok_iff] at hfinish
    cases h
    rcases (layout_eq_ok_iff (Nat.lt_succ_self _) depth).1 hlayout with ⟨v, hvalue, hshown⟩
    rw [hlength] at hvalue
    exact ⟨v, ⟨rest, hvalue, hfinish⟩, hshown⟩
  · rintro ⟨v, ⟨rest, hvalue, hfinish⟩, hshown⟩
    rw [← hlength] at hvalue
    have hlayout := (layout_eq_ok_iff (Nat.lt_succ_self _) depth).2 ⟨v, hvalue, hshown⟩
    exact bind_eq_ok.2 ⟨_, hlayout, bind_eq_ok.2 ⟨_, reading_eq_ok_iff.2 hfinish, rfl⟩⟩

/-- A text describes the layout that its document shows. -/
theorem Layout.ofText_eq_ok_iff {text : String} {l : Layout} :
    Layout.ofText text = .ok l ↔
      ∃ v, document (.ofBytes (Text.utf8 text)) = .ok v ∧ Layout.ShownBy v l := by
  simp only [document_iff_readsAs]
  exact Layout.ofText_eq_ok_iff_readsAs 126

end OpcodeAtlas
