import OpcodeAtlas.Proofs.Json.Assembly
import OpcodeAtlas.Proofs.Json.Comment

/-!
# OpcodeAtlas.Proofs.Json.Object — written objects are read back

The reader takes from an object that was written, in either style, the members that were written, in
the order of the text:

* `memberTexts` — the texts of the members, with the blanks that the style puts around them;
* `encode_objectChars` — the object is put together from them;
* `document_objectOfTexts`, `document_objectOfNumbers` — so it is read back as it was written;
* `withoutComments_objectOfTexts` — and nothing in it is taken for a comment.
-/

namespace OpcodeAtlas.Json

open Text (encode encode_append encode_cons)

/-! ## The parts of an object -/

/-- The texts of the members of an object, their values written already. -/
def memberTexts (style : Style) : List (String × List Char) → List MemberText
  | [] => []
  | m :: others =>
    ⟨encode (style.beforeMember ++ quote m.1),
      encode (style.colon.tail ++ m.2 ++ if others.isEmpty then style.afterMembers else [])⟩ ::
        memberTexts style others

/-- What a style puts in front of a member, behind the colon and behind the last member is blank. -/
theorem isBlank_style (style : Style) :
    (∀ b ∈ encode style.beforeMember, isBlankByte b = true) ∧
      (∀ b ∈ encode style.colon.tail, isBlankByte b = true) ∧
      ∀ b ∈ encode style.afterMembers, isBlankByte b = true := by
  have hbefore : (encode style.beforeMember).all isBlankByte = true := by
    cases style <;> decide
  have hcolon : (encode style.colon.tail).all isBlankByte = true := by
    cases style <;> decide
  have hafter : (encode style.afterMembers).all isBlankByte = true := by
    cases style <;> decide
  exact ⟨List.all_eq_true.1 hbefore, List.all_eq_true.1 hcolon, List.all_eq_true.1 hafter⟩

/-- Behind the opening brace stand the texts of the members with the marks between them. -/
theorem membersBytes_memberTexts (style : Style) (first : Bool) (m : String × List Char)
    (others : List (String × List Char)) :
    membersBytes first (memberTexts style (m :: others)) =
      (if first then [] else [0x2C]) ++ encode (member style m ++
        others.flatMap (fun m => ',' :: member style m) ++ style.afterMembers ++ ['\x7d']) := by
  have hmember : ∀ m : String × List Char, encode (member style m) =
      encode (style.beforeMember ++ quote m.1) ++ 0x3A :: encode (style.colon.tail ++ m.2) := by
    intro m
    have hparts : member style m =
        (style.beforeMember ++ quote m.1) ++ (':' :: (style.colon.tail ++ m.2)) := by
      cases style <;> simp [member, Style.colon]
    rw [hparts, encode_append, encode_cons]
    rfl
  have hcomma : ∀ cs : List Char, encode (',' :: cs) = 0x2C :: encode cs := encode_cons ','
  induction others generalizing first m with
  | nil =>
    rw [memberTexts, memberTexts, membersBytes, membersBytes]
    simp only [encode_append, hmember, List.append_assoc, List.cons_append, List.flatMap_nil]
    rfl
  | cons m' others ih =>
    rw [memberTexts, membersBytes, ih]
    simp only [encode_append, hmember, hcomma, List.append_assoc, List.cons_append,
      List.flatMap_cons]
    rfl

/-- An object that was written is put together from the texts of its members. -/
theorem encode_objectChars (style : Style) (ms : List (String × List Char)) :
    encode (objectChars style ms) = objectBytes (memberTexts style ms) := by
  cases ms with
  | nil => rfl
  | cons m others =>
    rw [objectBytes, membersBytes_memberTexts, objectChars, List.cons_append, List.cons_append,
      List.cons_append, encode_cons]
    rfl

/-! ## Reading it back -/

theorem readsAs_quote (s : String) : ReadsAs 0 (encode (quote s)) (.text s) := by
  refine ⟨[], value_text_iff.2 ⟨inQuotes s, ?_, ?_⟩, rfl⟩
  · rw [ofBytes_quote]
    rfl
  · have htext := text_inQuotes s []
    rwa [List.append_nil] at htext

/-- An integer of a size that the reader knows is read back. -/
theorem readsAs_decimal {n : Int} (h : Fits n) : ReadsAs 0 (decimal n) (.number (.integer n)) := by
  refine ⟨[], value_eq_integer_iff.2 ⟨[], List.forall_mem_nil _, ?_, trivial, h⟩, rfl⟩
  rw [List.nil_append, List.append_nil]

/-- The texts of the members read as the keys and values that were written. -/
theorem readsAs_memberTexts (style : Style) {ms : List (String × List Char)}
    {found : List (String × Value)}
    (h : List.Forall₂ (fun m x => m.1 = x.1 ∧ ReadsAs 0 (encode m.2) x.2) ms found) :
    List.Forall₂ (MemberText.ReadsAs 0) (memberTexts style ms) found := by
  rcases isBlank_style style with ⟨hbefore, hcolon, hafter⟩
  have hnone : ∀ b ∈ encode [], isBlankByte b = true := List.forall_mem_nil _
  induction h with
  | nil => exact .nil
  | @cons m x others found hm _ ih =>
    rcases m with ⟨key, written⟩
    rcases hm with ⟨rfl, hvalue⟩
    refine .cons ⟨?_, ?_⟩ ih
    · have hkey := (readsAs_quote x.1).blanks hbefore hnone
      rwa [← encode_append, ← encode_append, List.append_nil] at hkey
    · have hlast : ∀ b ∈ encode (if others.isEmpty then style.afterMembers else []),
          isBlankByte b = true := by
        split
        · exact hafter
        · exact hnone
      have hread := hvalue.blanks hcolon hlast
      rwa [← encode_append, ← encode_append] at hread

/-- An object is read back as it was written. -/
theorem document_objectChars (style : Style) {ms : List (String × List Char)}
    {found : List (String × Value)}
    (h : List.Forall₂ (fun m x => m.1 = x.1 ∧ ReadsAs 0 (encode m.2) x.2) ms found) :
    document (.ofBytes (Text.utf8 (String.ofList (objectChars style ms)))) =
      .ok (.object found) := by
  rw [Text.utf8_ofList, encode_objectChars, document_iff_readsAs]
  exact (readsAs_objectBytes (readsAs_memberTexts style h)).mono (by decide)

/-- A member with a text as its value. -/
def textMember (b : String × String) : String × Value := (b.1, .text b.2)

/-- A member with an integer as its value. -/
def numberMember (m : String × Int) : String × Value := (m.1, .number (.integer m.2))

theorem document_objectOfTexts (style : Style) (bindings : List (String × String)) :
    document (Feed.ofBytes (Text.utf8 (objectOfTexts style bindings))) =
      .ok (.object (bindings.map textMember)) := by
  refine document_objectChars style ?_
  rw [List.forall₂_map_left_iff, List.forall₂_map_right_iff, List.forall₂_same]
  exact fun b _ => ⟨rfl, readsAs_quote b.2⟩

theorem document_objectOfNumbers (style : Style) {ms : List (String × Int)}
    (h : ∀ m ∈ ms, Fits m.2) :
    document (Feed.ofBytes (Text.utf8 (objectOfNumbers style ms))) =
      .ok (.object (ms.map numberMember)) := by
  refine document_objectChars style ?_
  rw [List.forall₂_map_left_iff, List.forall₂_map_right_iff, List.forall₂_same]
  intro m hm
  refine ⟨rfl, ?_⟩
  rw [← Text.utf8_eq_encode]
  exact readsAs_decimal (h m hm)

/-- An object of texts passes, so nothing of it is taken for a comment. -/
theorem withoutComments_objectOfTexts (style : Style) (bindings : List (String × String)) :
    withoutComments (Text.utf8 (objectOfTexts style bindings)) =
      Feed.ofBytes (Text.utf8 (objectOfTexts style bindings)) := by
  apply withoutComments_of_passes
  rw [objectOfTexts, Text.utf8_ofList]
  apply passes_objectChars
  intro m hm
  rcases List.mem_map.1 hm with ⟨b, -, rfl⟩
  exact passes_quote b.2

end OpcodeAtlas.Json
