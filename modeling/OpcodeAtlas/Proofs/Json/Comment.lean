import OpcodeAtlas.Json.Comment
import OpcodeAtlas.Proofs.Json.Quoted

/-!
# OpcodeAtlas.Proofs.Json.Comment — what is no comment is left alone

A part of a document passes when all its bytes reach the reader as they are (`Lexeme.Passes`).

* `showFrom_of_passes`, `withoutComments_of_passes` — the feed of what passes is its bytes;
* `passes_quote` — text between quotes passes, even if it holds the marks of a comment;
* `passes_objectChars` — so does every object that was written.
-/

namespace OpcodeAtlas.Json

open Text (encode encode_append encode_cons)

namespace Lexeme

/-- The bytes lead from one state to another, and each of them is shown as it is. -/
inductive Passes : Lexeme → List UInt8 → Lexeme → Prop where
  | nil (s : Lexeme) : Passes s [] s
  | cons {s t : Lexeme} {b : UInt8} {bytes : List UInt8} (hshown : s.shown b = some b)
      (hrest : Passes (s.next b) bytes t) : Passes s (b :: bytes) t

theorem Passes.append {s t u : Lexeme} {bytes others : List UInt8} (h : Passes s bytes t)
    (h' : Passes t others u) : Passes s (bytes ++ others) u := by
  induction h with
  | nil => exact h'
  | cons hshown _ ih => exact .cons hshown (ih h')

/-- Bytes that neither open a text nor a comment pass outside of both. -/
theorem passes_plain {bytes : List UInt8}
    (h : (bytes.all fun b => b ≠ 0x22 ∧ b ≠ 0x2F) = true) : Passes .plain bytes .plain := by
  induction bytes with
  | nil => exact .nil _
  | cons b others ih =>
    rw [List.all_cons, Bool.and_eq_true, decide_eq_true_iff] at h
    rcases h with ⟨⟨hquote, hslash⟩, hothers⟩
    have hnext : Lexeme.plain.next b = .plain := by
      rw [next, if_neg hquote, if_neg hslash]
    refine .cons (if_neg hslash) ?_
    rw [hnext]
    exact ih hothers

/-- Bytes that stand for themselves pass inside a text; a slash is one of them. -/
theorem passes_text {bytes : List UInt8} (h : ∀ b ∈ bytes, IsPlain b) :
    Passes .text bytes .text := by
  induction bytes with
  | nil => exact .nil _
  | cons b others ih =>
    rcases h b List.mem_cons_self with ⟨-, hquote, hbackslash⟩
    have hnext : Lexeme.text.next b = .text := by
      rw [next, if_neg hquote, if_neg hbackslash]
    refine .cons rfl ?_
    rw [hnext]
    exact ih fun b' hb' => h b' (List.mem_cons_of_mem _ hb')

/-- A backslash takes the byte behind it into the text, whatever it is. -/
theorem passes_escape (b : UInt8) : Passes .text [0x5C, b] .text :=
  .cons rfl (.cons rfl (.nil _))

end Lexeme

open Lexeme (Passes passes_plain passes_text passes_escape)

/-! ## Showing what passes -/

theorem showFrom_of_passes {s t : Lexeme} {bytes : List UInt8} (h : Passes s bytes t)
    (shown : Feed) (rest : List UInt8) :
    showFrom s shown (bytes ++ rest) = showFrom t ((Feed.ofBytes bytes).reverse ++ shown) rest := by
  induction h generalizing shown with
  | nil => rfl
  | cons hshown _ ih =>
    rw [List.cons_append, showFrom, hshown, ih]
    simp [Feed.ofBytes]

/-- A document that passes is fed to the reader as it is. -/
theorem withoutComments_of_passes {bytes : List UInt8} (h : Passes .plain bytes .plain) :
    withoutComments bytes = Feed.ofBytes bytes := by
  have hshow := showFrom_of_passes h [] []
  rw [List.append_nil, List.append_nil] at hshow
  rw [withoutComments, hshow]
  simp [showFrom, Lexeme.mayEnd]

/-! ## What is written passes -/

/-- A sequence of parts passes if each part does and leads back to where it started. -/
theorem passes_flatMap {α : Type} {s : Lexeme} {items : List α} {f : α → List Char}
    (h : ∀ x ∈ items, Passes s (encode (f x)) s) : Passes s (encode (items.flatMap f)) s := by
  induction items with
  | nil => exact .nil _
  | cons x others ih =>
    rw [List.flatMap_cons, encode_append]
    exact (h x List.mem_cons_self).append (ih fun y hy => h y (List.mem_cons_of_mem _ hy))

theorem passes_escaped (c : Char) : Passes .text (encode (escaped c)) .text := by
  rcases escaped_cases c with ⟨-, b, -, -, hwritten, -⟩ | ⟨hcontrol, hwritten⟩ |
    ⟨hwritten, -, -, hplain⟩
  · rw [hwritten]
    exact passes_escape b
  · have hhigh : c.toNat / 16 < 16 := by omega
    have hlow : c.toNat % 16 < 16 := by omega
    rcases encode_digitChar hhigh with ⟨high, hhighByte, -, hhighPlain⟩
    rcases encode_digitChar hlow with ⟨low, hlowByte, -, hlowPlain⟩
    have hbytes : encode (escaped c) = [0x5C, 0x75] ++ [0x30, 0x30, high, low] := by
      rw [hwritten]
      change [0x5C, 0x75, 0x30, 0x30] ++ encode [Nat.digitChar (c.toNat / 16),
        Nat.digitChar (c.toNat % 16)] = _
      rw [encode_cons, hhighByte, hlowByte]
      rfl
    have hdigits : ∀ b ∈ [0x30, 0x30, high, low], IsPlain b := by
      have hzero : IsPlain 0x30 := by decide
      simp [hzero, hhighPlain, hlowPlain]
    rw [hbytes]
    exact (passes_escape 0x75).append (passes_text hdigits)
  · rw [hwritten]
    exact passes_text hplain

/-- Text between quotes passes, whatever it holds. -/
theorem passes_quote (s : String) : Passes .plain (encode (quote s)) .plain := by
  have hinside : Passes .text (encode (s.toList.flatMap escaped)) .text :=
    passes_flatMap fun c _ => passes_escaped c
  have hbytes : encode (quote s) = [0x22] ++ encode (s.toList.flatMap escaped) ++ [0x22] := by
    change encode (['"'] ++ s.toList.flatMap escaped ++ ['"']) = _
    rw [encode_append, encode_append]
    rfl
  have hopening : Passes .plain [0x22] .text := .cons rfl (.nil _)
  have hclosing : Passes .text [0x22] .plain := .cons rfl (.nil _)
  rw [hbytes]
  exact (hopening.append hinside).append hclosing

/-- The marks and blanks of either style pass. -/
theorem passes_style (style : Style) :
    Passes .plain (encode style.beforeMember) .plain ∧ Passes .plain (encode style.colon) .plain ∧
      Passes .plain (encode style.afterMembers) .plain := by
  refine ⟨passes_plain ?_, passes_plain ?_, passes_plain ?_⟩ <;> cases style <;> decide

theorem passes_member (style : Style) {m : String × List Char}
    (h : Passes .plain (encode m.2) .plain) : Passes .plain (encode (member style m)) .plain := by
  rcases passes_style style with ⟨hbefore, hcolon, -⟩
  rw [member, encode_append, encode_append, encode_append]
  exact ((hbefore.append (passes_quote m.1)).append hcolon).append h

/-- An object whose values pass does so itself. -/
theorem passes_objectChars (style : Style) {members : List (String × List Char)}
    (h : ∀ m ∈ members, Passes .plain (encode m.2) .plain) :
    Passes .plain (encode (objectChars style members)) .plain := by
  have hmark : ∀ c ∈ ['\x7b', ',', '\x7d'], Passes .plain (encode [c]) .plain := by
    intro c hc
    simp only [List.mem_cons, List.not_mem_nil, or_false] at hc
    rcases hc with rfl | rfl | rfl <;> exact passes_plain (by decide)
  cases members with
  | nil =>
    change Passes .plain [0x7B, 0x7D] .plain
    exact passes_plain (by decide)
  | cons first others =>
    have hothers :
        Passes .plain (encode (others.flatMap fun m => ',' :: member style m)) .plain := by
      refine passes_flatMap fun m hm => ?_
      rw [encode_cons]
      have hmember := passes_member style (h m (List.mem_cons_of_mem _ hm))
      exact (hmark ',' (by simp)).append hmember
    have hfirst := passes_member style (h first List.mem_cons_self)
    rw [objectChars, encode_append, encode_append, encode_append, encode_cons]
    exact (((hmark '\x7b' (by simp)).append hfirst).append hothers).append
      (passes_style style).2.2 |>.append (hmark '\x7d' (by simp))

end OpcodeAtlas.Json
