import OpcodeAtlas.Proofs.Json.Extent

/-!
# OpcodeAtlas.Proofs.Json.Assembly — objects put together from the texts of their members

The text of an object is a brace, the texts of its keys and values with the marks between them, and
another brace. Whatever blanks the texts have around them, the object reads as their members:

* `MemberText.ReadsAs` — the key and the value that two texts read as;
* `membersBytes` — what stands behind the opening brace;
* `nextMember_of_membersBytes` — one round takes the member whose texts stand next;
* `members_of_membersBytes` — a run over the members, by induction from one round;
* `readsAs_objectBytes` — the object as a text of its own.
-/

namespace OpcodeAtlas.Json

variable {feed rest extra : Feed} {bound depth : Nat}

/-! ## Keys -/

/-- A text stands behind its opening quote. -/
theorem value_text_iff {s : String} :
    value bound depth feed = .ok (.text s, rest) ↔
      ∃ inner, skipBlank feed = .ok (some 0x22 :: inner) ∧ text inner = .ok (s, rest) := by
  constructor
  · intro h
    cases value_iff_part.1 h with
    | @scalar _ _ more _ b _ hskip hmark hscalar =>
      rcases scalar_cases hscalar with ⟨-, ⟨⟩⟩ | ⟨_, ⟨⟩⟩ | ⟨-, _, ⟨⟩⟩ | ⟨rfl, -⟩
      rcases Outcome.map_eq_ok.1 hscalar with ⟨⟨s', behind⟩, htext, heq⟩
      cases heq
      exact ⟨more, hskip, htext⟩
  · rintro ⟨inner, hskip, htext⟩
    refine value_iff_part.2 (.scalar hskip (by decide) ?_)
    exact Outcome.map_eq_ok.2 ⟨(s, rest), htext, rfl⟩

/-! ## Members -/

/-- The texts of a key and its value, with the blanks around them. -/
structure MemberText where
  key : List UInt8
  value : List UInt8

/-- The member that two texts read as, its value of at most `depth` levels. -/
structure MemberText.ReadsAs (depth : Nat) (m : MemberText) (found : String × Value) : Prop where
  key : Json.ReadsAs 0 m.key (.text found.1)
  value : Json.ReadsAs depth m.value found.2

theorem MemberText.ReadsAs.mono {depth' : Nat} (hdepth : depth ≤ depth') {m : MemberText}
    {found : String × Value} (h : m.ReadsAs depth found) : m.ReadsAs depth' found :=
  ⟨h.key, h.value.mono hdepth⟩

/-- What stands behind an opening brace, or behind a first member: the texts of the members, all but
the first one of the object behind a comma, and the closing brace. -/
def membersBytes (first : Bool) : List MemberText → List UInt8
  | [] => [0x7D]
  | m :: others =>
    (if first then [] else [0x2C]) ++ m.key ++ 0x3A :: (m.value ++ membersBytes false others)

/-- The text of an object. -/
def objectBytes (ms : List MemberText) : List UInt8 := 0x7B :: membersBytes true ms

/-- Behind a value stands a comma or the closing brace. -/
theorem endsNumber_membersBytes (ms : List MemberText) (extra : Feed) :
    EndsNumber (Feed.ofBytes (membersBytes false ms) ++ extra) := by
  cases ms with
  | nil => exact ⟨by decide, by decide, by decide⟩
  | cons m others => exact ⟨by decide, by decide, by decide⟩

/-- One round takes the member whose texts stand next. -/
theorem nextMember_of_membersBytes {first : Bool} {m : MemberText} {others : List MemberText}
    {found : String × Value} (hm : m.ReadsAs depth found)
    (hkey : m.key.length < bound) (hvalue : m.value.length < bound)
    (hfeed : skipBlank feed =
      skipBlank (Feed.ofBytes (membersBytes first (m :: others)) ++ extra)) :
    ∃ place start behind, nextKey? first feed = .ok (some found.1, place) ∧
      colon place = .ok start ∧ value bound depth start = .ok (found.2, behind) ∧
      skipBlank behind = skipBlank (Feed.ofBytes (membersBytes false others) ++ extra) := by
  -- The key ends at the colon, and the value at the mark behind it.
  have hcolon : EndsNumber (some 0x3A :: (Feed.ofBytes m.value ++
      (Feed.ofBytes (membersBytes false others) ++ extra))) := ⟨by decide, by decide, by decide⟩
  rcases hm.key.append hcolon hkey with ⟨place, htext, hplace⟩
  rcases value_text_iff.1 htext with ⟨inner, hquote, htext⟩
  rcases hm.value.append (endsNumber_membersBytes others extra) hvalue with ⟨behind, hread, hbehind⟩
  refine ⟨place, _, behind, nextKey?_some_iff.2 ⟨inner, htext, ?_⟩, colon_iff.2 hplace, hread,
    hbehind⟩
  cases first with
  | true =>
    rw [if_pos rfl, hfeed, ← hquote]
    simp [membersBytes, Feed.ofBytes]
  | false =>
    rw [if_neg (by decide)]
    refine ⟨_, ?_, hquote⟩
    rw [hfeed]
    simp [membersBytes, Feed.ofBytes, skipBlank, isBlankByte]

/-- There is a byte at least for each member, and the texts of the members are shorter than the
whole. -/
theorem length_membersBytes (first : Bool) (ms : List MemberText) :
    ms.length < (membersBytes first ms).length ∧
      ∀ m ∈ ms, m.key.length < (membersBytes first ms).length ∧
        m.value.length < (membersBytes first ms).length := by
  induction ms generalizing first with
  | nil => simp [membersBytes]
  | cons m others ih =>
    rcases ih false with ⟨hcount, hothers⟩
    simp only [membersBytes, List.length_append, List.length_cons]
    refine ⟨by omega, fun m' hm' => ?_⟩
    rcases List.mem_cons.1 hm' with rfl | hm'
    · omega
    · have hm := hothers m' hm'
      omega

/-- All members are read up to the closing brace, by induction from one round. -/
theorem members_of_membersBytes {ms : List MemberText} {found : List (String × Value)}
    (hms : List.Forall₂ (MemberText.ReadsAs depth) ms found)
    (hlength : ∀ m ∈ ms, m.key.length < bound ∧ m.value.length < bound) {rounds : Nat}
    (hrounds : ms.length < rounds) {first : Bool}
    (hfeed : skipBlank feed = skipBlank (Feed.ofBytes (membersBytes first ms) ++ extra)) :
    members (value bound depth) rounds first feed = .ok (found, some 0x7D :: extra) := by
  -- Between two members the feed may be at blanks that the written text has not, so that it is
  -- compared behind them.
  induction hms generalizing rounds first feed with
  | nil =>
    obtain ⟨rounds, rfl⟩ := Nat.exists_eq_add_one.2 hrounds
    exact members_succ_iff.2 (.inl ⟨nextKey?_none_iff.2 ⟨hfeed, extra, rfl⟩, rfl⟩)
  | @cons m x others found hm _ ih =>
    obtain ⟨rounds, rfl⟩ := Nat.exists_eq_add_one.2 (Nat.zero_lt_of_lt hrounds)
    rcases hlength m List.mem_cons_self with ⟨hkey, hvalue⟩
    rcases nextMember_of_membersBytes hm hkey hvalue hfeed with
      ⟨place, start, behind, hnext, hcolon, hread, hbehind⟩
    have hothers := ih (fun m' hm' => hlength m' (List.mem_cons_of_mem _ hm'))
      (Nat.lt_of_succ_lt_succ hrounds) hbehind
    exact members_succ_iff.2
      (.inr ⟨x.1, place, start, behind, x.2, found, hnext, hcolon, hread, hothers, rfl⟩)

/-! ## Objects -/

/-- An object reads as its members. -/
theorem readsAs_objectBytes {ms : List MemberText} {found : List (String × Value)}
    (hms : List.Forall₂ (MemberText.ReadsAs depth) ms found) :
    ReadsAs (depth + 1) (objectBytes ms) (.object found) := by
  rcases length_membersBytes true ms with ⟨hcount, hlength⟩
  have hbounds : ∀ m ∈ ms, m.key.length < (objectBytes ms).length + 1 ∧
      m.value.length < (objectBytes ms).length + 1 := by
    intro m hm
    have hm := hlength m hm
    rw [objectBytes, List.length_cons]
    omega
  have hrounds : ms.length < (objectBytes ms).length + 1 := by
    rw [objectBytes, List.length_cons]
    omega
  have hmembers : members (value ((objectBytes ms).length + 1) depth) ((objectBytes ms).length + 1)
      true (Feed.ofBytes (membersBytes true ms)) = .ok (found, [some 0x7D]) := by
    refine members_of_membersBytes hms hbounds hrounds ?_
    rw [List.append_nil]
  exact ⟨[], value_iff_part.2 (.object rfl hmembers rfl), rfl⟩

end OpcodeAtlas.Json
