import OpcodeAtlas.Proofs.Json.Object
import OpcodeAtlas.Proofs.MapFile.Field
import OpcodeAtlas.Proofs.MapFile.LayoutReading

/-!
# OpcodeAtlas.Proofs.MapFile.LayoutMember — the layout of a map file and the layout of a text

A layout can be read straight from its text, or as the member `layout` of a map file, which is read
as a document first, put in order, and looked at only later. Both ways accept the same texts and
find the same layout:

* `LayoutFrame` — a document around the text of its member `layout`;
* `LayoutFrame.readsAs_around` — the document reads as its members, one of which the text is;
* `Layout.ofValue_eq_ok_iff` — the order in which an object is looked at does not matter;
* `layout_eq_ok_iff` — the legacy layout holds where there is no value or a null, and nowhere else;
* `layout_iff_ofText` — so the two ways agree.
-/

namespace OpcodeAtlas

open Json

/-! ## Documents with a layout -/

/-- The parts of a document around the text of its member `layout`, the last one of this key. -/
structure LayoutFrame where
  /-- The blanks in front of the document and behind it. -/
  front : List UInt8
  back : List UInt8
  /-- The other members, in front of the layout and behind it. -/
  before : List MemberText
  after : List MemberText
  /-- The key as it is written. -/
  key : List UInt8
  /-- The blanks between the layout and the marks around it. -/
  left : List UInt8
  right : List UInt8
  /-- What the other members read as, with a level less than a document may have. -/
  earlier : List (String × Value)
  later : List (String × Value)
  blank : ∀ b ∈ front ++ back ++ left ++ right, isBlankByte b = true
  reads_before : List.Forall₂ (MemberText.ReadsAs 126) before earlier
  reads_after : List.Forall₂ (MemberText.ReadsAs 126) after later
  reads_key : ReadsAs 0 key (.text "layout")
  last : "layout" ∉ later.map Prod.fst

namespace LayoutFrame

variable (frame : LayoutFrame)

/-- The members of the document with a text in the place of the layout. -/
def texts (text : List UInt8) : List MemberText :=
  frame.before ++ ⟨frame.key, frame.left ++ text ++ frame.right⟩ :: frame.after

/-- The document with a text in the place of the layout. -/
def around (text : List UInt8) : List UInt8 :=
  frame.front ++ objectBytes (frame.texts text) ++ frame.back

/-- The members that the document reads as. -/
def members (v : Value) : List (String × Value) := frame.earlier ++ ("layout", v) :: frame.later

variable {depth : Nat} {text : List UInt8} {v : Value}

/-- The document may have one level more than the text, and more than the other members. -/
theorem readsAs_around (hdepth : 126 ≤ depth) (h : ReadsAs depth text v) :
    ReadsAs (depth + 1) (frame.around text) (.object (frame.members v)) := by
  have hmono : ∀ {m : MemberText} {found : String × Value}, m.ReadsAs 126 found →
      m.ReadsAs depth found := fun hm => hm.mono hdepth
  have hblank := frame.blank
  simp only [List.forall_mem_append] at hblank
  rcases hblank with ⟨⟨⟨hfront, hback⟩, hleft⟩, hright⟩
  have hlayout : MemberText.ReadsAs depth ⟨frame.key, frame.left ++ text ++ frame.right⟩
      ("layout", v) := ⟨frame.reads_key, h.blanks hleft hright⟩
  have htexts : List.Forall₂ (MemberText.ReadsAs depth) (frame.texts text) (frame.members v) :=
    List.rel_append (frame.reads_before.imp fun _ _ => hmono)
      (.cons hlayout (frame.reads_after.imp fun _ _ => hmono))
  exact (readsAs_objectBytes htexts).blanks hfront hback

/-- The text decides on the member, as no later one has its key. -/
theorem lastValue?_members : lastValue? (frame.members v) "layout" = some v := by
  have hlater : frame.later.reverse.lookup "layout" = none := by
    rw [List.lookup_eq_none_iff]
    intro m hm
    have hkey := frame.last
    simpa using fun heq => hkey (List.mem_map.2 ⟨m, List.mem_reverse.1 hm, heq.symm⟩)
  rw [lastValue?, members, List.reverse_append, List.reverse_cons, List.append_assoc,
    List.lookup_append, hlater]
  rfl

end LayoutFrame

/-! ## Values in the order of their keys -/

/-- Looking at an object in the order of its keys finds the layout that it describes, if no key
stands twice in it. -/
theorem Layout.ofValue_eq_ok_iff {v : Value} {l : Layout}
    (h : ∀ members, v = .object members → (members.map Prod.fst).Nodup) :
    ofValue v = .ok l ↔ ShownBy v l := by
  cases v with
  | list items => exact shownBy_list_iff
  | object members =>
    have hperm := canonicalMembers_perm (h members rfl)
    refine Iff.trans shownBy_object_iff ⟨fun hshown => ?_, fun hshown => ?_⟩
    · exact hshown.of_perm hperm
    · exact hshown.of_perm hperm.symm
  | _ =>
    refine iff_of_false ?_ fun hshown => hshown.shaped
    intro heq
    cases heq

namespace MapFile

variable {file : MapFile} {l : Layout}

/-- The legacy layout holds where the file has no value or a null, and there only. -/
theorem layout_eq_ok_iff :
    file.layout = .ok l ↔
      (file.members.lookup "layout" = none ∨ file.members.lookup "layout" = some .null) ∧
        l = .legacy ∨
      ∃ v, file.members.lookup "layout" = some v ∧ v ≠ .null ∧ Layout.ofValue v = .ok l := by
  have hnone := @field?_eq_none_iff file .layout
  have hsome := fun v => @field?_eq_some_iff file .layout v
  change _ ↔
    file.members.lookup "layout" = none ∨ file.members.lookup "layout" = some .null at hnone
  change ∀ v, _ ↔ file.members.lookup "layout" = some v ∧ v ≠ .null at hsome
  simp only [← hnone, ← and_assoc, ← hsome, layout, optional]
  cases hfield : file.field? .layout with
  | none => simp [Except.map, eq_comm]
  | some v =>
    cases hvalue : Layout.ofValue v with
    | error cause => simp [Except.map, Except.mapError, hvalue]
    | ok l' => simp [Except.map, Except.mapError, hvalue]

/-- A value that describes no layout is a fault of the field. -/
theorem layout_of_mismatch {v : Value} (hlookup : file.members.lookup "layout" = some v)
    (hv : v ≠ .null) {cause : Mismatch} (h : Layout.ofValue v = .error cause) :
    file.layout = .error (.schema .layout (.mismatch cause)) := by
  have hfield : file.field? .layout = some v := field?_eq_some_iff.2 ⟨hlookup, hv⟩
  rw [layout, optional, hfield]
  simp only [h]
  rfl

/-! ## Two ways to a layout -/

section Around

variable {frame : LayoutFrame} {document layoutText : String} {depth : Nat} {v : Value}
  (hdocument : withoutComments (Text.utf8 document) =
    .ofBytes (frame.around (Text.utf8 layoutText)))

include hdocument

/-- The member is what its text reads as, whatever the depth at which that is known. -/
theorem lookup_of_around (hreads : ReadsAs depth (Text.utf8 layoutText) v)
    (hfile : ofText document = .ok file) : file.members.lookup "layout" = some v := by
  rcases ofBytes_eq_ok_iff.1 hfile with ⟨whole, hwhole, hvalue⟩
  rw [hdocument, document_iff_readsAs] at hwhole
  have haround := frame.readsAs_around (Nat.le_max_right depth 126)
    (hreads.mono (Nat.le_max_left depth 126))
  -- The text may be deeper than the document; either way it is the same value.
  obtain rfl := hwhole.unique haround
  cases hvalue
  exact (lookup_canonicalMembers _ _).trans frame.lastValue?_members

/-- There is a file if the text is not too deep. -/
theorem exists_of_around (hreads : ReadsAs 126 (Text.utf8 layoutText) v) :
    ∃ file, ofText document = .ok file := by
  have haround := frame.readsAs_around (Nat.le_refl 126) hreads
  refine ⟨⟨canonicalMembers (frame.members v)⟩, ofBytes_eq_ok_iff.2
    ⟨.object (frame.members v), ?_, rfl⟩⟩
  rw [hdocument]
  exact document_iff_readsAs.2 haround

end Around

/-- A list, or an object in which no key stands twice, describes a layout as a text of its own
exactly when it does so as the member of a document, and then it is the same layout. A text that
does not is a fault of the field, if the document can be read at all. The legacy layout never stands
in for it: it holds where there is no member or a null. -/
theorem layout_iff_ofText (frame : LayoutFrame) {document layoutText : String} {depth : Nat}
    {v : Value}
    (hdocument : withoutComments (Text.utf8 document) =
      .ofBytes (frame.around (Text.utf8 layoutText)))
    (hreads : ReadsAs depth (Text.utf8 layoutText) v)
    (hshape : (∃ items, v = .list items) ∨
      ∃ members, v = .object members ∧ (members.map Prod.fst).Nodup) :
    (∀ l, Layout.ofText layoutText = .ok l ↔
      ∃ file, ofText document = .ok file ∧ file.layout = .ok l) ∧
    (∀ fault, Layout.ofText layoutText = .error fault → ∀ file, ofText document = .ok file →
      ∃ cause, file.layout = .error (.schema .layout (.mismatch cause))) ∧
    ∀ (file : MapFile) (l : Layout), file.layout = .ok l ↔
      (file.members.lookup "layout" = none ∨ file.members.lookup "layout" = some .null) ∧
        l = .legacy ∨
      ∃ v, file.members.lookup "layout" = some v ∧ v ≠ .null ∧ Layout.ofValue v = .ok l := by
  have hnull : v ≠ .null := by
    rcases hshape with ⟨items, rfl⟩ | ⟨members, rfl, -⟩ <;> exact Value.noConfusion
  have hdistinct : ∀ members, v = .object members → (members.map Prod.fst).Nodup := by
    intro members heq
    rcases hshape with ⟨items, rfl⟩ | ⟨members', rfl, hnodup⟩ <;> cases heq
    exact hnodup
  -- Both ways find the layout that the value describes.
  have hdirect : ∀ l, Layout.ShownBy v l → Layout.ofText layoutText = .ok l := by
    intro l hshown
    exact (Layout.ofText_eq_ok_iff_readsAs depth).2 ⟨v, hreads.mono (Nat.le_succ depth), hshown⟩
  have hmember : ∀ file, ofText document = .ok file → ∀ l,
      file.layout = .ok l ↔ Layout.ShownBy v l := by
    intro file hfile l
    have hlookup := lookup_of_around hdocument hreads hfile
    rw [layout_eq_ok_iff, hlookup, ← Layout.ofValue_eq_ok_iff hdistinct]
    simp [hnull]
  refine ⟨fun l => ⟨?_, ?_⟩, ?_, fun _ _ => layout_eq_ok_iff⟩
  · intro h
    rcases (Layout.ofText_eq_ok_iff_readsAs 0).1 h with ⟨v', hread, hshown⟩
    obtain rfl := hread.unique hreads
    -- No list or object stands inside of what describes a layout, so the document is not too deep.
    rcases exists_of_around hdocument (hread.mono (by decide)) with ⟨file, hfile⟩
    exact ⟨file, hfile, (hmember file hfile l).2 hshown⟩
  · rintro ⟨file, hfile, h⟩
    exact hdirect l ((hmember file hfile l).1 h)
  · intro fault h file hfile
    cases hvalue : Layout.ofValue v with
    | ok l =>
      have hshown := (Layout.ofValue_eq_ok_iff hdistinct).1 hvalue
      cases h.symm.trans (hdirect l hshown)
    | error cause =>
      exact ⟨cause, layout_of_mismatch (lookup_of_around hdocument hreads hfile) hnull hvalue⟩

/-- A comment in front of the document, and a method before the layout. -/
def commentedFrame : LayoutFrame where
  front := [0x20, 0x20, 0x20, 0x20]
  back := [0x0A]
  before := [⟨Text.encode (quote "method"), Text.encode (quote "vtable")⟩]
  after := []
  key := Text.encode (quote "layout")
  left := [0x20]
  right := []
  earlier := [("method", .text "vtable")]
  later := []
  blank := by simp [isBlankByte]
  reads_before := .cons ⟨readsAs_quote "method", (readsAs_quote "vtable").mono (by decide)⟩ .nil
  reads_after := .nil
  reads_key := readsAs_quote "layout"
  last := by simp

/-- Five offsets are a layout both ways, and four are none. -/
theorem layout_iff_ofText_commented :
    (∃ file, ofText "/**/\x7b\"method\":\"vtable\",\"layout\": [1,2,3,4,5]\x7d\n" = .ok file ∧
      file.layout = .ok ⟨1, 2, 3, 4, 5, none⟩) ∧
    ∃ file, ofText "/**/\x7b\"method\":\"vtable\",\"layout\": [1,2,3,4]\x7d\n" = .ok file ∧
      ∃ cause, file.layout = .error (.schema .layout (.mismatch cause)) := by
  have hfive : ReadsAs 1 (Text.utf8 "[1,2,3,4,5]")
      (.list [.number (.integer 1), .number (.integer 2), .number (.integer 3),
        .number (.integer 4), .number (.integer 5)]) := ⟨[], rfl, rfl⟩
  have hfour : ReadsAs 1 (Text.utf8 "[1,2,3,4]")
      (.list [.number (.integer 1), .number (.integer 2), .number (.integer 3),
        .number (.integer 4)]) := ⟨[], rfl, rfl⟩
  have hframe : ∀ text ∈ ["[1,2,3,4,5]", "[1,2,3,4]"],
      withoutComments
        (Text.utf8 ("/**/\x7b\"method\":\"vtable\",\"layout\": " ++ text ++ "\x7d\n")) =
          .ofBytes (commentedFrame.around (Text.utf8 text)) := by decide +kernel
  simp only [List.forall_mem_cons] at hframe
  rcases layout_iff_ofText commentedFrame hframe.1 hfive (.inl ⟨_, rfl⟩) with ⟨hagree, -, -⟩
  rcases layout_iff_ofText commentedFrame hframe.2.1 hfour (.inl ⟨_, rfl⟩) with ⟨-, hfault, -⟩
  exact ⟨(hagree ⟨1, 2, 3, 4, 5, none⟩).1 rfl, _, rfl, hfault _ rfl _ rfl⟩

end MapFile

end OpcodeAtlas
