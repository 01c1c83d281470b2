import OpcodeAtlas.Proofs.Extraction.Exact
import OpcodeAtlas.Proofs.MapFile.Field

/-!
# OpcodeAtlas.Proofs.Signature.Compaction — the spelling of a signature does not matter

Two signatures that show the same characters apart from white space are one signature, however they
are broken into lines and wherever the white space stands.

* `Text.isBlank_iff` — white space as the table of its characters;
* `toList_compact` — the compact form is what is left of the written text (`SignatureText.visible`);
* `Extraction.run_congr` — extraction looks at a signature in its compact form only;
* `compact_visible` — so the compact form, the pattern or its fault, and the extracted map depend on
  what is left, and compacting goes line by line and is done after one time.
-/

namespace OpcodeAtlas

/-! ## White space -/

/-- The characters that have the property White_Space. -/
def Text.whiteSpace : List Char :=
  ['\t', '\n', '\x0B', '\x0C', '\r', ' ', '\u0085', '\u00A0', '\u1680', '\u2000', '\u2001', '\u2002',
    '\u2003', '\u2004', '\u2005', '\u2006', '\u2007', '\u2008', '\u2009', '\u200A', '\u2028', '\u2029',
    '\u202F', '\u205F', '\u3000']

theorem Text.isBlank_iff {c : Char} : isBlank c = true ↔ c ∈ whiteSpace := by
  simp only [isBlank, whiteSpace, List.mem_cons, List.not_mem_nil, or_false, ← Char.toNat_inj,
    Bool.or_eq_true, Bool.and_eq_true, decide_eq_true_eq, beq_iff_eq, Char.reduceToNat]
  omega

/-! ## Compact forms -/

namespace SignatureText

/-- The lines of a signature; one text is one line. -/
def written : SignatureText → List String
  | .text line => [line]
  | .lines several => several

/-- The characters of all lines that are no white space. -/
def visible (s : SignatureText) : List Char :=
  (s.written.flatMap String.toList).filter (· ∉ Text.whiteSpace)

theorem compact_eq_joinLines (s : SignatureText) : s.compact = joinLines s.written := by
  cases s <;> rfl

theorem joinLines_eq_join (lines : List String) :
    joinLines lines = String.join (lines.map fun line => joinLines [line]) := by
  simp [joinLines]

/-- The compact form of a signature is what is left of it without white space. -/
theorem toList_compact (s : SignatureText) : s.compact.toList = s.visible := by
  have hblank : ∀ c, (!Text.isBlank c) = decide (c ∉ Text.whiteSpace) := by
    intro c
    rw [Bool.eq_iff_iff, Bool.not_eq_true', decide_eq_true_iff, ← Text.isBlank_iff,
      Bool.not_eq_true]
  rw [compact_eq_joinLines, joinLines, String.toList_join, List.flatMap_map, visible,
    List.filter_flatMap]
  simp only [Text.toList_strip, hblank]

theorem compact_eq_iff {s t : SignatureText} : s.compact = t.compact ↔ s.visible = t.visible := by
  rw [← toList_compact, ← toList_compact, String.toList_inj]

/-- Nothing is left to take out of a compact form. -/
theorem visible_text_compact (s : SignatureText) : (text s.compact).visible = s.visible := by
  have hone : (text s.compact).written.flatMap String.toList = s.visible := by
    rw [← toList_compact]
    exact List.append_nil _
  rw [visible, hone, visible, List.filter_filter]
  simp only [Bool.and_self]

end SignatureText

/-! ## What depends on a compact form -/

/-- Files that agree on everything but the spelling of the signature ask for the same extraction. -/
theorem MapFile.vtableConfig_eq_of_compact {file file' : MapFile} {s t : SignatureText}
    (hs : file.signature = .ok s) (ht : file'.signature = .ok t) (hcompact : s.compact = t.compact)
    (hnames : file.names = file'.names) (hlayout : file.layout = file'.layout) :
    file.vtableConfig = file'.vtableConfig := by
  rw [vtableConfig, vtableConfig, hs, ht, hnames, hlayout, Outcome.ok_bind, Outcome.ok_bind,
    hcompact]

/-- Extraction looks at a signature in its compact form only. -/
theorem Extraction.run_congr {x : Extraction} {file file' : MapFile} {image : Image}
    {s t : SignatureText} (hs : file.signature = .ok s) (ht : file'.signature = .ok t)
    (hcompact : s.compact = t.compact)
    (hothers : ∀ key, key ≠ "signature" → file.members.lookup key = file'.members.lookup key) :
    x.run file image = x.run file' image := by
  have hfield : ∀ field : MapField, field.key ≠ "signature" →
      file.field? field = file'.field? field :=
    fun field hkey => MapFile.field?_congr (hothers field.key hkey)
  have hmethod := MapFile.method_eq_of_field? (hfield .method (by decide))
  have hnames := MapFile.names_eq_of_field? (hfield .map (by decide))
  have hlayout := MapFile.layout_eq_of_field? (hfield .layout (by decide))
  rw [run, run, hmethod, MapFile.vtableConfig_eq_of_compact hs ht hcompact hnames hlayout]

namespace SignatureText

/-- The compact form of a signature is the sequence of its characters without white space, over all
its lines, and it is all that counts: signatures that show the same sequence have the same compact
form, spell the same pattern or have the same fault, and lead to the same map or the same failure in
files that agree on every other key. A list of lines is compacted line by line, and a compact form
is compact already, as a text and as a line. -/
theorem compact_visible (s t : SignatureText) :
    s.compact.toList = s.visible ∧
    (s.compact = t.compact ↔ s.visible = t.visible) ∧
    (s.visible = t.visible → Pattern.parse s.compact = Pattern.parse t.compact ∧
      ∀ (x : Extraction) (image : Image) (file file' : MapFile),
        file.signature = .ok s → file'.signature = .ok t →
        (∀ key, key ≠ "signature" → file.members.lookup key = file'.members.lookup key) →
        x.run file image = x.run file' image) ∧
    (∀ several, (lines several).compact =
      String.join (several.map fun line => (text line).compact)) ∧
    (text s.compact).compact = s.compact ∧ (lines [s.compact]).compact = s.compact := by
  have hagain : (text s.compact).compact = s.compact :=
    compact_eq_iff.2 (visible_text_compact s)
  refine ⟨toList_compact s, compact_eq_iff, ?_, joinLines_eq_join, hagain, hagain⟩
  intro hvisible
  have hcompact : s.compact = t.compact := compact_eq_iff.2 hvisible
  refine ⟨by rw [hcompact], ?_⟩
  intro x image file file' hs ht hothers
  exact Extraction.run_congr hs ht hcompact hothers

/-- A signature over two lines, broken inside a byte and with a no-break space, extracts what it
does on one line. -/
theorem compact_visible_brokenLines :
    (lines ["F", "E\u00A00\t", "2"]).compact = "FE02" ∧
    Extraction.run ⟨false, .strict⟩
        ((Extraction.tightFile "").withMember "signature"
          (.list [.text "F", .text "E\u00A00\t", .text "2"])) (Layout.tightSwitch 2) =
      .ok (.ofList [(2, "FooHandler")]) := by
  rcases compact_visible (lines ["F", "E\u00A00\t", "2"]) (text "FE02") with ⟨-, hiff, hsame, -⟩
  have hvisible : (lines ["F", "E\u00A00\t", "2"]).visible = (text "FE02").visible := by decide
  refine ⟨(hiff.2 hvisible).trans (by decide), ?_⟩
  rw [(hsame hvisible).2 _ _ _
    ((Extraction.tightFile "").withMember "signature" (.text "FE02")) rfl rfl]
  · rfl
  · intro key hkey
    simp only [MapFile.withMember, Json.lookup_bindSorted_of_ne hkey]

end SignatureText

end OpcodeAtlas
