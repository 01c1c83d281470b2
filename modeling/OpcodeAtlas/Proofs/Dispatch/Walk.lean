import Mathlib.Data.Nat.Find
import OpcodeAtlas.Dispatch.Decode
import OpcodeAtlas.Proofs.Dispatch.Description

/-!
# OpcodeAtlas.Proofs.Dispatch.Walk — what a walk over the table keeps

A walk keeps, of every table entry up to the highest index, the case that it stands for, and ends
at the first entry that cannot be read:

* `resume_succ` — one step: an entry that can be read puts its case on top of those found;
* `resume_add` — a run over readable entries, by induction from the step;
* `result_of_readable`, `result_of_unreadable` — the two ends of a walk over the whole table;
* `result_eq_ok_iff` — a walk succeeds exactly when it can read every entry, and then its cases are
  those of the indices in order.
-/

namespace OpcodeAtlas

namespace SwitchHeader

variable {h : SwitchHeader} {image : Image} {index : Nat} {target : Int}

/-- The table entry with an index can be read. -/
def Readable (h : SwitchHeader) (image : Image) (index : Nat) : Prop :=
  ∃ target, h.readTarget image index = .ok target

/-- The case that the table entry with an index stands for, if it leads past the default case. -/
def case? (h : SwitchHeader) (image : Image) (index : Nat) : Option Case :=
  match h.readTarget image index with
  | .ok target => if target = h.defaultCase then none else some (h.caseAt image index target)
  | .error _ => none

theorem case?_eq_some_iff {c : Case} :
    h.case? image index = some c ↔ ∃ target, h.readTarget image index = .ok target ∧
      target ≠ h.defaultCase ∧ c = h.caseAt image index target := by
  unfold case?
  split
  · rename_i target hread
    split
    · rename_i hdefault
      simp [hread, hdefault]
    · rename_i hother
      simp [hread, hother, eq_comm]
  · rename_i hread
    simp [hread]

theorem entryPosition_eq : h.entryPosition index = h.tableStart + 4 * index := by
  unfold entryPosition entryWidth
  omega

/-- The entry with an index stands four bytes behind the one before it, relative to the image
base. -/
theorem readTarget_eq_ok_iff :
    h.readTarget image index = .ok target ↔
      h.tableStart + 4 * index + 4 < Offset.limit ∧
        image.SignedAt 4 (h.tableStart + 4 * index) (target - h.imageBase) := by
  rw [readTarget, DispatchField.reading, Outcome.map_eq_ok, entryPosition_eq]
  simp only [Outcome.mapError_eq_ok]
  constructor
  · intro hex
    rcases hex with ⟨relative, hread, rfl⟩
    rw [show h.imageBase + relative - h.imageBase = relative by omega]
    exact Image.readI32At_eq_ok_iff.1 hread
  · intro hstands
    exact ⟨_, Image.readI32At_eq_ok_iff.2 hstands, by omega⟩

theorem readable_iff :
    h.Readable image index ↔
      ∃ relative, image.readI32At (h.tableStart + 4 * index) = .ok relative := by
  unfold Readable
  constructor
  · intro hex
    rcases hex with ⟨target, hread⟩
    exact ⟨_, Image.readI32At_eq_ok_iff.2 (readTarget_eq_ok_iff.1 hread)⟩
  · intro hex
    rcases hex with ⟨relative, hread⟩
    refine ⟨h.imageBase + relative, readTarget_eq_ok_iff.2 ?_⟩
    rw [show h.imageBase + relative - h.imageBase = relative by omega]
    exact Image.readI32At_eq_ok_iff.1 hread

/-- The failure of an entry is the failure to read its four bytes. -/
theorem readTarget_eq_error {cause : ReadError}
    (hread : image.readI32At (h.tableStart + 4 * index) = .error cause) :
    h.readTarget image index = .error (.unreadable .tableEntry cause) := by
  rw [readTarget, DispatchField.reading, entryPosition_eq, hread]
  rfl

end SwitchHeader

namespace Walk

variable {h : SwitchHeader} {image : Image}

/-! ## A step and a run -/

/-- An entry that can be read puts its case, if it has one, on top of those found. -/
theorem resume_succ {remaining index : Nat} {found : List Case} (hread : h.Readable image index) :
    resume h image (remaining + 1) index found =
      resume h image remaining (index + 1) ((h.case? image index).toList ++ found) := by
  rcases hread with ⟨target, hread⟩
  rw [resume, hread]
  simp only [SwitchHeader.case?, hread]
  by_cases hdefault : target = h.defaultCase <;> simp [hdefault]

/-- A run over entries that can be read collects their cases, last first. -/
theorem resume_add {before index : Nat} (remaining : Nat) (found : List Case)
    (hreads : ∀ j < before, h.Readable image (index + j)) :
    resume h image (before + remaining) index found =
      resume h image remaining (index + before)
        (((List.range' index before).filterMap (h.case? image)).reverse ++ found) := by
  induction before generalizing index found with
  | zero => simp
  | succ before ih =>
    -- One step leaves a run that is one entry shorter and starts one entry further on.
    have hfirst : h.Readable image index := hreads 0 (Nat.succ_pos before)
    have hrest : ∀ j < before, h.Readable image (index + 1 + j) := by
      intro j hj
      rw [show index + 1 + j = index + (j + 1) by omega]
      exact hreads (j + 1) (by omega)
    rw [show before + 1 + remaining = before + remaining + 1 by omega, resume_succ hfirst,
      ih _ hrest,
      show index + 1 + before = index + (before + 1) by omega, List.range'_succ]
    cases hcase : h.case? image index <;> simp [hcase]

/-! ## The whole table -/

theorem ofHeader_of_nonneg (hcount : 0 ≤ h.count) :
    ofHeader h image = resume h image (h.count.toNat + 1) 0 [] :=
  if_neg (by omega)

/-- A negative highest index makes an empty table. -/
theorem result_of_negative (hcount : h.count < 0) : (ofHeader h image).result = .ok [] := by
  rw [ofHeader, if_pos hcount]
  rfl

/-- A walk that can read every entry keeps the cases of the indices in order. -/
theorem result_of_readable (hcount : 0 ≤ h.count)
    (hreads : ∀ i : Nat, (i : Int) ≤ h.count → h.Readable image i) :
    (ofHeader h image).result =
      .ok ((List.range (h.count.toNat + 1)).filterMap (h.case? image)) := by
  have hall : ∀ j < h.count.toNat + 1, h.Readable image (0 + j) := by
    intro j hj
    rw [Nat.zero_add]
    exact hreads j (by omega)
  have hrun := resume_add 0 [] hall
  rw [ofHeader_of_nonneg hcount, ← Nat.add_zero (h.count.toNat + 1), hrun, List.range_eq_range']
  simp [resume, result]

/-- A walk ends at the first entry that it cannot read, and keeps nothing. -/
theorem result_of_unreadable (hcount : 0 ≤ h.count) {i : Nat} {e : DecodeError}
    (hi : (i : Int) ≤ h.count) (hbefore : ∀ j < i, h.Readable image j)
    (hfails : h.readTarget image i = .error e) : (ofHeader h image).result = .error e := by
  have hall : ∀ j < i, h.Readable image (0 + j) := by
    intro j hj
    rw [Nat.zero_add]
    exact hbefore j hj
  -- The entries before `i` are a run; the walk then stands at `i`, with that entry left to read.
  have hrun := resume_add (h.count.toNat - i + 1) [] hall
  rw [ofHeader_of_nonneg hcount, show h.count.toNat + 1 = i + (h.count.toNat - i + 1) by omega,
    hrun, Nat.zero_add, resume, hfails]
  rfl

/-- Of a table that cannot be read throughout there is a first entry that cannot be read. -/
theorem exists_first_unreadable {count : Int}
    (hsome : ¬∀ i : Nat, (i : Int) ≤ count → h.Readable image i) :
    ∃ (i : Nat) (e : DecodeError), (i : Int) ≤ count ∧ (∀ j < i, h.Readable image j) ∧
      h.readTarget image i = .error e := by
  classical
  have hex : ∃ i : Nat, (i : Int) ≤ count ∧ ¬h.Readable image i := by
    simpa only [not_forall, exists_prop] using hsome
  rcases Nat.find_spec hex with ⟨hi, hunreadable⟩
  refine ⟨Nat.find hex, ?_⟩
  cases hread : h.readTarget image (Nat.find hex) with
  | ok target => exact absurd ⟨target, hread⟩ hunreadable
  | error e =>
    refine ⟨e, hi, fun j hj => ?_, rfl⟩
    have hmin := Nat.find_min hex hj
    rw [not_and, not_not] at hmin
    exact hmin (by omega)

theorem result_eq_ok_iff (hcount : 0 ≤ h.count) {cases : List Case} :
    (ofHeader h image).result = .ok cases ↔
      (∀ i : Nat, (i : Int) ≤ h.count → h.Readable image i) ∧
        cases = (List.range (h.count.toNat + 1)).filterMap (h.case? image) := by
  constructor
  · intro hok
    have hreads : ∀ i : Nat, (i : Int) ≤ h.count → h.Readable image i := by
      by_contra hsome
      rcases exists_first_unreadable hsome with ⟨i, e, hi, hbefore, hfails⟩
      rw [result_of_unreadable hcount hi hbefore hfails] at hok
      cases hok
    rw [result_of_readable hcount hreads] at hok
    exact ⟨hreads, (Except.ok.inj hok).symm⟩
  · intro hex
    rcases hex with ⟨hreads, rfl⟩
    exact result_of_readable hcount hreads

end Walk

end OpcodeAtlas
