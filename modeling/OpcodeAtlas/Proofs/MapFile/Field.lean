import OpcodeAtlas.MapFile.Basic
import OpcodeAtlas.Proofs.Json.Canonical
import OpcodeAtlas.Proofs.Outcome

/-!
# OpcodeAtlas.Proofs.MapFile.Field — fields that stand on their own

A field is looked at only when it is asked for, and what is wrong with it names it and no other:

* `exists_ofBytes_of_object` — the file that an object makes;
* `method_of_missing`, `method_of_text`, `method_of_mismatch` — the method by the value that is there;
* `schema_of_signature`, `schema_of_names`, `schema_of_layout` — a fault of a field names the field;
* `method_eq_of_field?`, `signature_eq_of_field?`, `names_eq_of_field?`, `layout_eq_of_field?` — files
  that agree on the value of a field agree on the field;
* `withMember` — a file with one value replaced; `method_withMember`, `signature_withMember`,
  `names_withMember`, `layout_withMember` — the other fields do not notice.
-/

namespace OpcodeAtlas.MapFile

open Outcome (bind_eq_error fault?_eq_some_iff fault?_map fault?_mapError)

variable {file : MapFile} {field : MapField}

/-! ## Files -/

section Files

variable {bytes : List UInt8}

/-- A document that can be read decides on the file. -/
theorem ofBytes_of_document {v : Json.Value}
    (h : Json.document (Json.withoutComments bytes) = .ok v) : ofBytes bytes = ofValue v := by
  unfold ofBytes
  simp only [h]

theorem ofBytes_eq_ok_iff :
    ofBytes bytes = .ok file ↔
      ∃ v, Json.document (Json.withoutComments bytes) = .ok v ∧ ofValue v = .ok file := by
  cases hdocument : Json.document (Json.withoutComments bytes) with
  | ok v => simp [ofBytes_of_document hdocument]
  | error failure =>
    unfold ofBytes
    simp [hdocument]

/-- An object is a file in which each key has the last value that the text gives it. -/
theorem exists_ofBytes_of_object {document : List (String × Json.Value)}
    (h : Json.document (Json.withoutComments bytes) = .ok (.object document)) :
    ∃ file, ofBytes bytes = .ok file ∧
      ∀ key, file.members.lookup key = Json.lastValue? document key := by
  refine ⟨⟨Json.canonicalMembers document⟩, ?_, Json.lookup_canonicalMembers document⟩
  rw [ofBytes_of_document h, ofValue]

end Files

/-! ## Values of fields -/

theorem field?_eq_some_iff {v : Json.Value} :
    file.field? field = some v ↔ file.members.lookup field.key = some v ∧ v ≠ .null := by
  unfold field?
  split
  · rename_i hnull
    rw [hnull]
    constructor
    · intro h
      cases h
    · rintro ⟨⟨⟩, hv⟩
      exact absurd rfl hv
  · rename_i hfound
    constructor
    · intro h
      refine ⟨h, ?_⟩
      rintro rfl
      exact hfound h
    · exact And.left

theorem field?_eq_none_iff :
    file.field? field = none ↔
      file.members.lookup field.key = none ∨ file.members.lookup field.key = some .null := by
  unfold field?
  split
  · rename_i hnull
    simp [hnull]
  · rename_i hfound
    exact ⟨.inl, fun h => h.resolve_right hfound⟩

/-! ## Faults name their field -/

section Faults

variable {α : Type} {convert : Json.Value → Except Mismatch α} {e : MapFileError}

theorem schema_of_optional (h : file.optional field convert = .error e) :
    ∃ fault, e = .schema field fault := by
  unfold optional at h
  split at h
  · cases h
  · rw [← fault?_eq_some_iff, fault?_map, fault?_mapError, Option.map_eq_some_iff] at h
    rcases h with ⟨cause, -, rfl⟩
    exact ⟨_, rfl⟩

theorem schema_of_required (h : file.required field convert = .error e) :
    ∃ fault, e = .schema field fault := by
  rcases bind_eq_error.1 h with hoptional | ⟨found, -, hfound⟩
  · exact schema_of_optional hoptional
  · cases found with
    | none =>
      cases hfound
      exact ⟨_, rfl⟩
    | some x => cases hfound

theorem schema_of_signature (h : file.signature = .error e) :
    ∃ fault, e = .schema .signature fault :=
  schema_of_required h

/-- A slot that cannot be one is a fault of the field that gives it. -/
theorem schema_of_nameSlots {names : SlotNames} {bindings : List (String × Int)}
    (h : nameSlots names bindings = .error e) : ∃ fault, e = .schema .map fault := by
  induction bindings generalizing names with
  | nil => cases h
  | cons b rest ih =>
    rcases b with ⟨name, slot⟩
    rw [nameSlots] at h
    split at h
    · exact ih h
    · cases h
      exact ⟨_, rfl⟩

theorem schema_of_names (h : file.names = .error e) : ∃ fault, e = .schema .map fault := by
  rcases bind_eq_error.1 h with hrequired | ⟨bindings, -, hnamed⟩
  · exact schema_of_required hrequired
  · exact schema_of_nameSlots hnamed

theorem schema_of_layout (h : file.layout = .error e) : ∃ fault, e = .schema .layout fault := by
  rw [layout, ← fault?_eq_some_iff, fault?_map, fault?_eq_some_iff] at h
  exact schema_of_optional h

end Faults

/-! ## The method -/

/-- No method, or a null, is a method without a name. -/
theorem method_of_missing (h : file.field? .method = none) : file.method = .ok (.other "") := by
  rw [method, optional, h]
  rfl

theorem method_of_text {name : String} (h : file.field? .method = some (.text name)) :
    file.method = .ok (Method.ofName name) := by
  rw [method, optional, h]
  rfl

theorem method_of_mismatch {v : Json.Value} (h : file.field? .method = some v)
    (htext : ∀ s, v ≠ .text s) : ∃ fault, file.method = .error (.schema .method fault) := by
  have hconvert : ∃ cause, textOf v = .error cause := by
    cases v with
    | text s => exact absurd rfl (htext s)
    | _ => exact ⟨_, rfl⟩
  rcases hconvert with ⟨cause, hcause⟩
  refine ⟨.mismatch cause, ?_⟩
  rw [method, optional, h]
  simp only [hcause]
  rfl

/-! ## A field is converted from its own value and nothing else -/

section Own

variable {file' : MapFile}

theorem field?_congr (h : file.members.lookup field.key = file'.members.lookup field.key) :
    file.field? field = file'.field? field := by
  rw [field?, field?, h]

theorem optional_eq_of_field? {α : Type} (convert : Json.Value → Except Mismatch α)
    (h : file.field? field = file'.field? field) :
    file.optional field convert = file'.optional field convert := by
  rw [optional, optional, h]

theorem required_eq_of_field? {α : Type} (convert : Json.Value → Except Mismatch α)
    (h : file.field? field = file'.field? field) :
    file.required field convert = file'.required field convert := by
  rw [required, required, optional_eq_of_field? convert h]

theorem method_eq_of_field? (h : file.field? .method = file'.field? .method) :
    file.method = file'.method := by
  rw [method, method, optional_eq_of_field? textOf h]

theorem signature_eq_of_field? (h : file.field? .signature = file'.field? .signature) :
    file.signature = file'.signature :=
  required_eq_of_field? signatureOf h

theorem names_eq_of_field? (h : file.field? .map = file'.field? .map) : file.names = file'.names := by
  rw [names, names, required_eq_of_field? integersOf h]

theorem layout_eq_of_field? (h : file.field? .layout = file'.field? .layout) :
    file.layout = file'.layout := by
  rw [layout, layout, optional_eq_of_field? Layout.ofValue h]

end Own

/-! ## Replacing one value -/

/-- The file with another value for one key. -/
def withMember (file : MapFile) (key : String) (v : Json.Value) : MapFile :=
  ⟨Json.bindSorted key v file.members⟩

section Replaced

variable {key : String} {v : Json.Value}

/-- The new value is the one found. -/
theorem lookup_withMember (file : MapFile) (key : String) (v : Json.Value) :
    (file.withMember key v).members.lookup key = some v :=
  Json.lookup_bindSorted_self key v file.members

theorem field?_withMember (h : key ≠ field.key) :
    (file.withMember key v).field? field = file.field? field := by
  refine field?_congr ?_
  rw [withMember, Json.lookup_bindSorted_of_ne h.symm]

theorem method_withMember (h : key ≠ "method") :
    (file.withMember key v).method = file.method :=
  method_eq_of_field? (field?_withMember h)

theorem signature_withMember (h : key ≠ "signature") :
    (file.withMember key v).signature = file.signature :=
  signature_eq_of_field? (field?_withMember h)

theorem names_withMember (h : key ≠ "map") : (file.withMember key v).names = file.names :=
  names_eq_of_field? (field?_withMember h)

theorem layout_withMember (h : key ≠ "layout") :
    (file.withMember key v).layout = file.layout :=
  layout_eq_of_field? (field?_withMember h)

end Replaced

end OpcodeAtlas.MapFile
