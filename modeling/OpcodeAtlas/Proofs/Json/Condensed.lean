import OpcodeAtlas.Proofs.Json.Quoted
import OpcodeAtlas.Text.Blank

/-!
# OpcodeAtlas.Proofs.Json.Condensed — the styles differ in white space only

A JSON text is condensed by taking out the white space that stands outside of its string literals
(`condensed`). A literal ends at a quote that is not behind a backslash, so white space in a literal
stays, even next to an escaped quote. What is left of a part of a text is told together with the state
before it and behind it (`Leaves`):

* `Leaves.append`, `leaves_flatMap` — parts that follow one another;
* `leaves_escaped`, `leaves_quote` — a literal is left as it was written;
* `leaves_objectChars` — of an object in either style the compact one is left;
* `condense_objectOfTexts` — so it is for a whole text.
-/

namespace OpcodeAtlas.Json

/-- Where a character of a text stands. -/
inductive Literal where
  | outside
  | inside
  /-- Behind a backslash in a literal. -/
  | escape
deriving DecidableEq, Repr

/-- The characters without the white space outside of literals. -/
def condensed : Literal → List Char → List Char
  | _, [] => []
  | .outside, c :: rest =>
    if Text.isBlank c then condensed .outside rest
    else c :: condensed (if c = '"' then .inside else .outside) rest
  | .inside, c :: rest =>
    c :: condensed (if c = '"' then .outside else if c = '\\' then .escape else .inside) rest
  | .escape, c :: rest => c :: condensed .inside rest

/-- A text without the white space outside of its literals. -/
def condense (s : String) : String := String.ofList (condensed .outside s.toList)

/-- The characters lead from one state to another, and condensing leaves those others of them. -/
def Leaves (s : Literal) (written left : List Char) (t : Literal) : Prop :=
  ∀ rest, condensed s (written ++ rest) = left ++ condensed t rest

theorem Leaves.append {s t u : Literal} {written left written' left' : List Char}
    (h : Leaves s written left t) (h' : Leaves t written' left' u) :
    Leaves s (written ++ written') (left ++ left') u := by
  intro rest
  rw [List.append_assoc, h, h', List.append_assoc]

theorem leaves_nil (s : Literal) : Leaves s [] [] s := fun _ => rfl

/-- Items that lead back to where they start are condensed one by one. -/
theorem leaves_flatMap {α : Type} {s : Literal} {items : List α} {f g : α → List Char}
    (h : ∀ x ∈ items, Leaves s (f x) (g x) s) :
    Leaves s (items.flatMap f) (items.flatMap g) s := by
  induction items with
  | nil => exact leaves_nil s
  | cons x others ih =>
    rw [List.flatMap_cons, List.flatMap_cons]
    have hfirst := h x List.mem_cons_self
    exact hfirst.append (ih fun y hy => h y (List.mem_cons_of_mem _ hy))

/-! ## Literals -/

/-- In a literal, what is neither a quote nor a backslash is left and leads on in it. -/
theorem leaves_plain {c : Char} (hquote : c ≠ '"') (hbackslash : c ≠ '\\') :
    Leaves .inside [c] [c] .inside := by
  intro rest
  rw [List.singleton_append, condensed, if_neg hquote, if_neg hbackslash]
  rfl

/-- A backslash takes the character behind it into the literal, whatever it is. -/
theorem leaves_escape (c : Char) : Leaves .inside ['\\', c] ['\\', c] .inside := fun _ => rfl

/-- A digit is neither a quote nor a backslash. -/
theorem leaves_digitChar {d : Nat} (h : d < 16) :
    Leaves .inside [Nat.digitChar d] [Nat.digitChar d] .inside := by
  have hall : ∀ d < 16, Nat.digitChar d ≠ '"' ∧ Nat.digitChar d ≠ '\\' := by decide
  exact leaves_plain (hall d h).1 (hall d h).2

/-- However a character is written, it is left and leads on in the literal. -/
theorem leaves_escaped (c : Char) : Leaves .inside (escaped c) (escaped c) .inside := by
  rcases escaped_cases c with ⟨letter, -, -, hwritten, -⟩ | ⟨hcontrol, hwritten⟩ |
    ⟨hwritten, hquote, hbackslash, -⟩
  · rw [hwritten]
    exact leaves_escape letter
  · have hhigh := leaves_digitChar (show c.toNat / 16 < 16 by omega)
    have hlow := leaves_digitChar (show c.toNat % 16 < 16 by omega)
    have hzero := leaves_digitChar (show 0 < 16 by decide)
    rw [hwritten]
    exact (leaves_escape 'u').append (hzero.append (hzero.append (hhigh.append hlow)))
  · rw [hwritten]
    exact leaves_plain hquote hbackslash

/-- A literal is left as it was written, with the white space in it. -/
theorem leaves_quote (s : String) : Leaves .outside (quote s) (quote s) .outside := by
  have hopening : Leaves .outside ['"'] ['"'] .inside := fun _ => rfl
  have hclosing : Leaves .inside ['"'] ['"'] .outside := fun _ => rfl
  have hbody : Leaves .inside (s.toList.flatMap escaped) (s.toList.flatMap escaped) .inside :=
    leaves_flatMap fun c _ => leaves_escaped c
  exact (hopening.append hbody).append hclosing

/-! ## Objects -/

/-- Of what a style puts around a member, only the colon is left. -/
theorem leaves_style (style : Style) :
    Leaves .outside style.beforeMember [] .outside ∧ Leaves .outside style.colon [':'] .outside ∧
      Leaves .outside style.afterMembers [] .outside := by
  cases style <;> exact ⟨fun _ => rfl, fun _ => rfl, fun _ => rfl⟩

theorem leaves_member (style : Style) {m : String × List Char}
    (h : Leaves .outside m.2 m.2 .outside) :
    Leaves .outside (member style m) (member .compact m) .outside := by
  rcases leaves_style style with ⟨hbefore, hcolon, -⟩
  exact ((hbefore.append (leaves_quote m.1)).append hcolon).append h

/-- Of an object the compact one is left, if its values are left as they were written. -/
theorem leaves_objectChars (style : Style) {members : List (String × List Char)}
    (h : ∀ m ∈ members, Leaves .outside m.2 m.2 .outside) :
    Leaves .outside (objectChars style members) (objectChars .compact members) .outside := by
  cases members with
  | nil => exact fun _ => rfl
  | cons first others =>
    have hopening : Leaves .outside ['\x7b'] ['\x7b'] .outside := fun _ => rfl
    have hclosing : Leaves .outside ['\x7d'] ['\x7d'] .outside := fun _ => rfl
    have hcomma : Leaves .outside [','] [','] .outside := fun _ => rfl
    have hfirst := leaves_member style (h first List.mem_cons_self)
    have hothers : Leaves .outside (others.flatMap fun m => ',' :: member style m)
        (others.flatMap fun m => ',' :: member .compact m) .outside :=
      leaves_flatMap fun m hm =>
        hcomma.append (leaves_member style (h m (List.mem_cons_of_mem _ hm)))
    exact (((hopening.append hfirst).append hothers).append (leaves_style style).2.2).append hclosing

/-- Condensing an object of texts makes it compact, whatever its keys and values hold. -/
theorem condense_objectOfTexts (style : Style) (bindings : List (String × String)) :
    condense (objectOfTexts style bindings) = objectOfTexts .compact bindings := by
  have hvalues : ∀ m ∈ bindings.map fun b => (b.1, quote b.2),
      Leaves .outside m.2 m.2 .outside := by
    intro m hm
    rcases List.mem_map.1 hm with ⟨b, -, rfl⟩
    exact leaves_quote b.2
  have hleft := leaves_objectChars style hvalues []
  rw [List.append_nil] at hleft
  rw [condense, objectOfTexts, String.toList_ofList, hleft]
  exact congrArg String.ofList (List.append_nil _)

/-- The blank behind an escaped quote stands in the literal. -/
example : condense (objectOfTexts .pretty [("5", "a\" b")]) = "\x7b\"5\":\"a\\\" b\"\x7d" := by decide

end OpcodeAtlas.Json
