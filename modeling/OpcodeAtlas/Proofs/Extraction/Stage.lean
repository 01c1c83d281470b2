import OpcodeAtlas.Proofs.Extraction.Exact
import OpcodeAtlas.Proofs.MapFile.Field

/-!
# OpcodeAtlas.Proofs.Extraction.Stage — the first stage that fails decides

By the known method an extraction goes through six stages (`Stage.all`). Each has its own fault,
told by file and image alone (`Stage.fault?`); a stage that does not get what it needs from an
earlier one has none.

* `fault?_run` — an extraction fails with the fault of the first stage that has one;
* `Stage.schema_of_field` — a fault of a field names the field of its stage;
* `run_precedence` — when extraction fails and with what, for every method; that the fields do not
  influence each other; and what is extracted in the place of a fault.
-/

namespace OpcodeAtlas

open Outcome (fault? fault?_bind fault?_bind_pure fault?_mapError)

/-- The pattern of the signature, if there is one and it can be read. -/
def MapFile.pattern? (file : MapFile) : Option Pattern := do
  let signature ← file.signature.toOption
  (Pattern.parse signature.compact).toOption

theorem MapFile.pattern?_of_parse {file : MapFile} {signature : SignatureText} {p : Pattern}
    (hsignature : file.signature = .ok signature) (hparse : Pattern.parse signature.compact = .ok p) :
    file.pattern? = some p := by
  rw [pattern?, hsignature]
  exact congrArg Except.toOption hparse

namespace Extraction

open Layout (tightSwitch)

/-- The stages of an extraction by the known method. -/
inductive Stage where
  /-- One of the three fields that are looked at. -/
  | signature | map | layout
  /-- The signature is read as a pattern. -/
  | pattern
  /-- The pattern is looked for. -/
  | matchCount
  /-- The switch is decoded. -/
  | decode
deriving DecidableEq, Repr

namespace Stage

/-- All stages in their order. -/
def all : List Stage := [.signature, .map, .layout, .pattern, .matchCount, .decode]

/-- The field that a stage looks at. -/
def field? : Stage → Option MapField
  | .signature => some .signature
  | .map => some .map
  | .layout => some .layout
  | _ => none

/-- The fault of a stage, none if an earlier stage keeps it from its work. -/
def fault? (policy : MismatchPolicy) (file : MapFile) (image : Image) :
    Stage → Option ExtractError
  | .signature => (Outcome.fault? file.signature).map .mapFile
  | .map => (Outcome.fault? file.names).map .mapFile
  | .layout => (Outcome.fault? file.layout).map .mapFile
  | .pattern => do
    let signature ← file.signature.toOption
    (Outcome.fault? (Pattern.parse signature.compact)).map .pattern
  | .matchCount => do
    let p ← file.pattern?
    if (p.scan image).length = 1 then none else some (.matchCount (p.scan image).length)
  | .decode => do
    let p ← file.pattern?
    let layout ← file.layout.toOption
    match p.scan image with
    | [start] => (Outcome.fault? (layout.decode policy image start)).map .decode
    | _ => none

end Stage

variable {x : Extraction} {file : MapFile} {image : Image}

/-! ## The stages one by one -/

/-- The fields are looked at in the order of their stages. -/
theorem fault?_vtableConfig (policy : MismatchPolicy) (file : MapFile) (image : Image) :
    fault? (file.vtableConfig.mapError ExtractError.mapFile) =
      (Stage.signature.fault? policy file image).or
        ((Stage.map.fault? policy file image).or (Stage.layout.fault? policy file image)) := by
  rw [fault?_mapError, MapFile.vtableConfig,
    fault?_bind fun _ _ => fault?_bind fun _ _ => fault?_bind_pure]
  simp only [Option.map_or, Stage.fault?]

theorem fault?_findUnique (p : Pattern) (image : Image) :
    fault? ((p.findUnique image).mapError ExtractError.matchCount) =
      if (p.scan image).length = 1 then none else some (.matchCount (p.scan image).length) := by
  cases hfind : p.findUnique image with
  | ok start =>
    rw [if_pos (by rw [Pattern.findUnique_eq_ok_iff.1 hfind]; rfl)]
    rfl
  | error count =>
    rcases Pattern.findUnique_eq_error_iff.1 hfind with ⟨rfl, hcount⟩
    rw [if_neg hcount]
    rfl

theorem fault?_locate {signature : SignatureText} (hsignature : file.signature = .ok signature)
    (policy : MismatchPolicy) (image : Image) :
    fault? (locate signature.compact image) =
      (Stage.pattern.fault? policy file image).or (Stage.matchCount.fault? policy file image) := by
  have hfind : ∀ p, (Pattern.parse signature.compact).mapError ExtractError.pattern = .ok p →
      fault? ((p.findUnique image).mapError ExtractError.matchCount) =
        Stage.matchCount.fault? policy file image := by
    intro p hp
    rw [fault?_findUnique, Stage.fault?,
      MapFile.pattern?_of_parse hsignature (Outcome.mapError_eq_ok.1 hp)]
    rfl
  have hpattern : Stage.pattern.fault? policy file image =
      (fault? (Pattern.parse signature.compact)).map .pattern := by
    rw [Stage.fault?, hsignature]
    rfl
  rw [locate, fault?_bind fun p hp => fault?_bind_pure.trans (hfind p hp), fault?_mapError, hpattern]

/-- Behind the fields, the signature is read, looked for and followed. -/
theorem fault?_runVTable {config : VTableConfig} (hconfig : file.vtableConfig = .ok config) :
    fault? (x.runVTable config image) =
      (Stage.pattern.fault? x.policy file image).or
        ((Stage.matchCount.fault? x.policy file image).or
          (Stage.decode.fault? x.policy file image)) := by
  obtain ⟨signature, names, layout, hsignature, -, hlayout, rfl⟩ :=
    MapFile.vtableConfig_eq_ok_iff.1 hconfig
  have hdecode : ∀ found, locate signature.compact image = .ok found →
      fault? ((layout.decode x.policy image found.2).mapError ExtractError.decode) =
        Stage.decode.fault? x.policy file image := by
    rintro ⟨p, start⟩ hlocate
    rcases locate_eq_ok_iff.1 hlocate with ⟨hparse, hfind⟩
    rw [fault?_mapError, Stage.fault?, MapFile.pattern?_of_parse hsignature hparse, hlayout]
    change _ = match p.scan image with
      | [start] => (fault? (layout.decode x.policy image start)).map ExtractError.decode
      | _ => none
    rw [Pattern.findUnique_eq_ok_iff.1 hfind]
  rw [runVTable, fault?_bind fun found hfound => fault?_bind_pure.trans (hdecode found hfound),
    fault?_locate hsignature x.policy, Option.or_assoc]

/-- An extraction by the known method fails with the fault of the first stage that has one. -/
theorem fault?_run (hmethod : file.method = .ok .vtable) :
    fault? (x.run file image) = Stage.all.findSome? (Stage.fault? x.policy file image) := by
  have hrun : x.run file image =
      file.vtableConfig.mapError .mapFile >>= fun config => x.runVTable config image := by
    rw [run, hmethod]
    rfl
  rw [hrun, fault?_bind fun config hconfig => fault?_runVTable (Outcome.mapError_eq_ok.1 hconfig),
    fault?_vtableConfig x.policy file image]
  simp only [Stage.all, Outcome.findSome?_cons_or, List.findSome?_nil, Option.or_assoc,
    Option.or_none]

/-! ## What a stage is to blame for -/

theorem schema_of_fault? {α : Type} {read : Except MapFileError α} {field : MapField}
    {e : ExtractError}
    (hread : ∀ cause, read = .error cause → ∃ fault, cause = .schema field fault)
    (h : (fault? read).map .mapFile = some e) : ∃ fault, e = .mapFile (.schema field fault) := by
  rcases Option.map_eq_some_iff.1 h with ⟨cause, hcause, rfl⟩
  rcases hread cause (Outcome.fault?_eq_some_iff.1 hcause) with ⟨fault, rfl⟩
  exact ⟨fault, rfl⟩

/-- A fault of a field is one of the field that its stage looks at. -/
theorem Stage.schema_of_field {policy : MismatchPolicy} {stage : Stage} {field : MapField}
    {e : ExtractError} (hfield : stage.field? = some field)
    (h : stage.fault? policy file image = some e) :
    ∃ fault, e = .mapFile (.schema field fault) := by
  cases stage with
  | signature =>
    cases hfield
    exact schema_of_fault? (fun _ => MapFile.schema_of_signature) h
  | map =>
    cases hfield
    exact schema_of_fault? (fun _ => MapFile.schema_of_names) h
  | layout =>
    cases hfield
    exact schema_of_fault? (fun _ => MapFile.schema_of_layout) h
  | pattern => cases hfield
  | matchCount => cases hfield
  | decode => cases hfield

/-- Behind the fields no fault is one of the map file. -/
theorem Stage.ne_mapFile_of_no_field {policy : MismatchPolicy} {stage : Stage} {e : ExtractError}
    (hfield : stage.field? = none) (h : stage.fault? policy file image = some e)
    (cause : MapFileError) : e ≠ .mapFile cause := by
  cases stage with
  | signature => cases hfield
  | map => cases hfield
  | layout => cases hfield
  | pattern =>
    rcases Option.bind_eq_some_iff.1 h with ⟨signature, -, h⟩
    rcases Option.map_eq_some_iff.1 h with ⟨fault, -, rfl⟩
    simp
  | matchCount =>
    rcases Option.bind_eq_some_iff.1 h with ⟨p, -, h⟩
    split at h <;> cases h
    simp
  | decode =>
    rcases Option.bind_eq_some_iff.1 h with ⟨p, -, h⟩
    rcases Option.bind_eq_some_iff.1 h with ⟨layout, -, h⟩
    split at h
    · rcases Option.map_eq_some_iff.1 h with ⟨fault, -, rfl⟩
      simp
    · cases h

/-- No stage blames the method. -/
theorem Stage.ne_method {policy : MismatchPolicy} {stage : Stage} {e : ExtractError}
    (h : stage.fault? policy file image = some e) (fault : SchemaFault) :
    e ≠ .mapFile (.schema .method fault) := by
  cases hfield : stage.field? with
  | none => exact ne_mapFile_of_no_field hfield h _
  | some field =>
    rcases schema_of_field hfield h with ⟨found, rfl⟩
    cases stage <;> cases hfield <;> simp

theorem Stage.mem_all (stage : Stage) : stage ∈ all := by
  cases stage <;> simp [all]

/-! ## Precedence -/

theorem run_of_method_error {cause : MapFileError} (hmethod : file.method = .error cause) :
    x.run file image = .error (.mapFile cause) := by
  rw [run, hmethod]
  rfl

/-- A method that is not known extracts nothing, whatever else file and image hold. -/
theorem run_of_other {name : String} (hmethod : file.method = .ok (.other name)) :
    x.run file image = .ok .empty := by
  rw [run, hmethod]
  rfl

/-- By the known method the fault of the first stage that has one is the result. -/
theorem run_of_first_fault (hmethod : file.method = .ok .vtable) {before after : List Stage}
    {stage : Stage} {e : ExtractError} (hsplit : Stage.all = before ++ stage :: after)
    (hbefore : ∀ s ∈ before, s.fault? x.policy file image = none)
    (hfault : stage.fault? x.policy file image = some e) : x.run file image = .error e := by
  have hnone := List.findSome?_eq_none_iff.2 hbefore
  rw [← Outcome.fault?_eq_some_iff, fault?_run hmethod, hsplit, List.findSome?_append, hnone,
    Option.none_or, Outcome.findSome?_cons_or, hfault]
  rfl

theorem run_eq_ok_iff_no_fault (hmethod : file.method = .ok .vtable) :
    (∃ opcodes, x.run file image = .ok opcodes) ↔
      ∀ stage : Stage, stage.fault? x.policy file image = none := by
  rw [← Outcome.fault?_eq_none_iff, fault?_run hmethod, List.findSome?_eq_none_iff]
  exact ⟨fun h stage => h stage stage.mem_all, fun h stage _ => h stage⟩

/-- The method is blamed exactly when there is one that is no text. -/
theorem run_blames_method_iff :
    (∃ fault, x.run file image = .error (.mapFile (.schema .method fault))) ↔
      ∃ v, file.field? .method = some v ∧ ∀ s, v ≠ .text s := by
  constructor
  · intro h
    rcases h with ⟨fault, hrun⟩
    cases hfield : file.field? .method with
    | none =>
      rw [run_of_other (MapFile.method_of_missing hfield)] at hrun
      cases hrun
    | some v =>
      refine ⟨v, rfl, ?_⟩
      rintro name rfl
      have hmethod := MapFile.method_of_text hfield
      by_cases hknown : name = "vtable"
      · rw [Method.ofName, if_pos hknown] at hmethod
        rw [← Outcome.fault?_eq_some_iff, fault?_run hmethod] at hrun
        rcases List.exists_of_findSome?_eq_some hrun with ⟨stage, -, hstage⟩
        exact Stage.ne_method hstage fault rfl
      · rw [Method.ofName, if_neg hknown] at hmethod
        rw [run_of_other hmethod] at hrun
        cases hrun
  · intro h
    rcases h with ⟨v, hfield, htext⟩
    rcases MapFile.method_of_mismatch hfield htext with ⟨fault, hmethod⟩
    exact ⟨fault, run_of_method_error hmethod⟩

/-- What an extraction comes to, in the order in which it is decided. A method that is there and is
no text is blamed; any other method but the known one extracts nothing, whatever else file and image
hold; and by the known one the first stage that has a fault decides, a fault of a field naming that
field, and without a fault there is a map. The fields do not influence each other. In the place of a
fault an empty map is extracted, and otherwise the same map. -/
theorem run_precedence (x : Extraction) (file : MapFile) (image : Image) :
    ((∃ fault, x.run file image = .error (.mapFile (.schema .method fault))) ↔
      ∃ v, file.members.lookup "method" = some v ∧ v ≠ .null ∧ ∀ s, v ≠ .text s) ∧
    (file.members.lookup "method" = none ∨ file.members.lookup "method" = some .null ∨
        (∃ s, s ≠ "vtable" ∧ file.members.lookup "method" = some (.text s)) →
      x.run file image = .ok .empty) ∧
    (file.members.lookup "method" = some (.text "vtable") →
      (∀ before stage after e, Stage.all = before ++ stage :: after →
        (∀ s ∈ before, s.fault? x.policy file image = none) →
        stage.fault? x.policy file image = some e → x.run file image = .error e) ∧
      ((∃ opcodes, x.run file image = .ok opcodes) ↔
        ∀ stage : Stage, stage.fault? x.policy file image = none)) ∧
    (∀ (stage : Stage) field e, stage.field? = some field →
      stage.fault? x.policy file image = some e → ∃ fault, e = .mapFile (.schema field fault)) ∧
    (∀ key v, (file.withMember key v).members.lookup key = some v ∧
      (key ≠ "method" → (file.withMember key v).method = file.method) ∧
      (key ≠ "signature" → (file.withMember key v).signature = file.signature) ∧
      (key ≠ "map" → (file.withMember key v).names = file.names) ∧
      (key ≠ "layout" → (file.withMember key v).layout = file.layout)) ∧
    (∀ opcodes, x.run file image = .ok opcodes → x.runOrEmpty file image = opcodes) ∧
    (∀ e, x.run file image = .error e → x.runOrEmpty file image = .empty) := by
  refine ⟨?_, ?_, ?_, fun stage field e => Stage.schema_of_field, ?_, ?_, ?_⟩
  · rw [run_blames_method_iff]
    simp only [MapFile.field?_eq_some_iff, and_assoc]
    rfl
  · intro hmethod
    rcases hmethod with hnone | hnull | ⟨s, hs, htext⟩
    · exact run_of_other (MapFile.method_of_missing (MapFile.field?_eq_none_iff.2 (.inl hnone)))
    · exact run_of_other (MapFile.method_of_missing (MapFile.field?_eq_none_iff.2 (.inr hnull)))
    · have hfield : file.field? .method = some (.text s) :=
        MapFile.field?_eq_some_iff.2 ⟨htext, by simp⟩
      have hmethod := MapFile.method_of_text hfield
      rw [Method.ofName, if_neg hs] at hmethod
      exact run_of_other hmethod
  · intro htext
    have hfield : file.field? .method = some (.text "vtable") :=
      MapFile.field?_eq_some_iff.2 ⟨htext, by simp⟩
    have hmethod : file.method = .ok .vtable := MapFile.method_of_text hfield
    exact ⟨fun before stage after e => run_of_first_fault hmethod, run_eq_ok_iff_no_fault hmethod⟩
  · intro key v
    exact ⟨file.lookup_withMember key v, MapFile.method_withMember, MapFile.signature_withMember,
      MapFile.names_withMember, MapFile.layout_withMember⟩
  · intro opcodes hrun
    rw [runOrEmpty, hrun]
  · intro e hrun
    rw [runOrEmpty, hrun]

/-- Of a map that is missing and a signature that cannot be read, the map is blamed. -/
theorem run_precedence_twoFaults :
    Stage.pattern.fault? .strict ((tightFile "FE0").withMember "map" .null) (tightSwitch 2) ≠ none ∧
      run ⟨false, .strict⟩ ((tightFile "FE0").withMember "map" .null) (tightSwitch 2) =
        .error (.mapFile (.schema .map .missing)) := by
  have hbefore : ∀ s ∈ [Stage.signature],
      s.fault? .strict ((tightFile "FE0").withMember "map" .null) (tightSwitch 2) = none := by
    intro s hs
    obtain rfl := List.mem_singleton.1 hs
    rfl
  rcases run_precedence ⟨false, .strict⟩ ((tightFile "FE0").withMember "map" .null)
    (tightSwitch 2) with ⟨-, -, hvtable, -⟩
  exact ⟨nofun, (hvtable rfl).1 [.signature] .map [.layout, .pattern, .matchCount, .decode] _ rfl
    hbefore rfl⟩

end Extraction

end OpcodeAtlas
