import OpcodeAtlas.MapFile.Basic
import OpcodeAtlas.Proofs.Json.Comment
import OpcodeAtlas.Proofs.Json.Taken
import OpcodeAtlas.Proofs.MapFile.Field

/-!
# OpcodeAtlas.Proofs.MapFile.Commented — comments do not change a map file

What a comment is, is said here by grammars that know no states: `TextBody` for what stands between
quotes, `Comment` for comments, and `Closed` for what may stand in front of one.

* `Comment.seen` — to the reader a comment looks like the blanks in its place;
* `Closed.plain_or_refused` — behind what is closed a comment may begin, unless a lone slash has
  ended the feed already;
* `passes_of_slashesQuoted` — a document with no slash outside of its texts is fed as it is;
* `MapFile.ofBytes_comments` — blanks may stand for a comment anywhere, and without comments a map
  file is the plain document.
-/

namespace OpcodeAtlas.Json

/-! ## Texts and comments -/

/-- What may stand between two quotes: a backslash takes the byte behind it with it. -/
inductive TextBody : List UInt8 → Prop where
  | nil : TextBody []
  | byte {b : UInt8} {rest : List UInt8} (hquote : b ≠ 0x22) (hbackslash : b ≠ 0x5C)
      (hrest : TextBody rest) : TextBody (b :: rest)
  | escape {b : UInt8} {rest : List UInt8} (hrest : TextBody rest) : TextBody (0x5C :: b :: rest)

/-- A comment as it is written, and with a blank in the place of each of its bytes; the newline behind
a comment stays. -/
inductive Comment : List UInt8 → List UInt8 → Prop where
  | block {content : List UInt8} (h : ¬[0x2A, 0x2F] <:+: content) :
      Comment ([0x2F, 0x2A] ++ content ++ [0x2A, 0x2F]) (List.replicate (content.length + 4) 0x20)
  | line {content : List UInt8} (h : 0x0A ∉ content) :
      Comment ([0x2F, 0x2F] ++ content ++ [0x0A])
        (List.replicate (content.length + 2) 0x20 ++ [0x0A])

/-- The bytes end outside of all texts and comments, and not behind a slash that could open a
comment. -/
inductive Closed : List UInt8 → Prop where
  | nil : Closed []
  | byte {b : UInt8} {rest : List UInt8} (hquote : b ≠ 0x22) (hslash : b ≠ 0x2F)
      (hrest : Closed rest) : Closed (b :: rest)
  | text {body rest : List UInt8} (hbody : TextBody body) (hrest : Closed rest) :
      Closed (0x22 :: (body ++ 0x22 :: rest))
  | comment {written blanked rest : List UInt8} (hcomment : Comment written blanked)
      (hrest : Closed rest) : Closed (written ++ rest)
  /-- A slash that opens no comment. -/
  | slash {b : UInt8} {rest : List UInt8} (hstar : b ≠ 0x2A) (hslash : b ≠ 0x2F)
      (hrest : Closed (b :: rest)) : Closed (0x2F :: b :: rest)

/-- Every slash among the bytes stands in a text. -/
def SlashesQuoted (bytes : List UInt8) : Prop :=
  ∀ front back, bytes = front ++ 0x2F :: back → front.foldl Quoting.next .outside ≠ .outside

/-! ## What the reader sees -/

namespace Lexeme

/-- The state behind bytes. -/
def after (s : Lexeme) (bytes : List UInt8) : Lexeme := bytes.foldl next s

/-- What the reader sees of bytes. -/
def view : Lexeme → List UInt8 → Feed
  | _, [] => []
  | s, b :: rest => s.shown b :: (s.next b).view rest

variable {s t : Lexeme}

@[simp]
theorem after_nil (s : Lexeme) : s.after [] = s := rfl

@[simp]
theorem after_cons (s : Lexeme) (b : UInt8) (rest : List UInt8) :
    s.after (b :: rest) = (s.next b).after rest := rfl

@[simp]
theorem after_append (s : Lexeme) (bytes others : List UInt8) :
    s.after (bytes ++ others) = (s.after bytes).after others := List.foldl_append

@[simp]
theorem view_append (s : Lexeme) (bytes others : List UInt8) :
    s.view (bytes ++ others) = s.view bytes ++ (s.after bytes).view others := by
  induction bytes generalizing s with
  | nil => rfl
  | cons b rest ih => simp [view, ih]

theorem Passes.after {bytes : List UInt8} (h : Passes s bytes t) : s.after bytes = t := by
  induction h with
  | nil => rfl
  | cons _ _ ih => exact ih

theorem Passes.view {bytes : List UInt8} (h : Passes s bytes t) :
    s.view bytes = Feed.ofBytes bytes := by
  induction h with
  | nil => rfl
  | cons hshown _ ih => simp [Lexeme.view, Feed.ofBytes, hshown, ih]

end Lexeme

open Lexeme (Passes)

theorem showFrom_append (s : Lexeme) (shown : Feed) (bytes rest : List UInt8) :
    showFrom s shown (bytes ++ rest) =
      showFrom (s.after bytes) ((s.view bytes).reverse ++ shown) rest := by
  induction bytes generalizing s shown with
  | nil => rfl
  | cons b others ih =>
    rw [List.cons_append, showFrom, ih]
    simp [Lexeme.view]

/-- The feed is what is seen of the bytes, and a refusal if they must not end where they do. -/
theorem withoutComments_eq_view (bytes : List UInt8) :
    withoutComments bytes =
      Lexeme.plain.view bytes ++ if (Lexeme.plain.after bytes).mayEnd then [] else [none] := by
  have hshow := showFrom_append .plain [] bytes []
  rw [List.append_nil] at hshow
  rw [withoutComments, hshow, showFrom]
  split <;> simp

/-- Parts that look alike and lead to the same state may stand for each other. -/
theorem withoutComments_congr {front part other : List UInt8}
    (hview : (Lexeme.plain.after front).view part = (Lexeme.plain.after front).view other)
    (hafter : (Lexeme.plain.after front).after part = (Lexeme.plain.after front).after other)
    (back : List UInt8) :
    withoutComments (front ++ part ++ back) = withoutComments (front ++ other ++ back) := by
  simp only [withoutComments_eq_view, Lexeme.view_append, Lexeme.after_append, hview, hafter]

/-! ## Comments -/

/-- The bytes of a state are all seen as blanks, up to another state. -/
def Blanked (s : Lexeme) (bytes : List UInt8) (t : Lexeme) : Prop :=
  s.view bytes = List.replicate bytes.length (some 0x20) ∧ s.after bytes = t

theorem Blanked.cons {s t : Lexeme} {b : UInt8} {bytes : List UInt8}
    (hshown : s.shown b = some 0x20) (h : Blanked (s.next b) bytes t) :
    Blanked s (b :: bytes) t := by
  rcases h with ⟨hview, hafter⟩
  exact ⟨by rw [Lexeme.view, hshown, hview]; rfl, hafter⟩

/-- The first end of a block comment ends it. Behind an asterisk its content must not begin with a
slash. -/
theorem blanked_block (content : List UInt8) :
    (¬[0x2A, 0x2F] <:+: content → Blanked .block (content ++ [0x2A, 0x2F]) .plain) ∧
      (¬[0x2A, 0x2F] <:+: 0x2A :: content →
        Blanked .blockStar (content ++ [0x2A, 0x2F]) .plain) := by
  -- An asterisk leads from the first state to the second, any other byte back to the first.
  induction content with
  | nil => exact ⟨fun _ => ⟨rfl, rfl⟩, fun _ => ⟨rfl, rfl⟩⟩
  | cons b rest ih =>
    rcases ih with ⟨hblock, hstar⟩
    constructor
    · intro hend
      refine Blanked.cons rfl ?_
      by_cases hb : b = 0x2A
      · subst hb
        exact hstar hend
      · rw [Lexeme.next, if_neg hb]
        exact hblock fun hrest => hend (List.infix_cons hrest)
    · intro hend
      have hbehind : ¬[0x2A, 0x2F] <:+: b :: rest := fun hrest => hend (List.infix_cons hrest)
      refine Blanked.cons rfl ?_
      by_cases hslash : b = 0x2F
      · subst hslash
        exact absurd (List.prefix_append [0x2A, 0x2F] rest).isInfix hend
      · by_cases hb : b = 0x2A
        · subst hb
          exact hstar hbehind
        · rw [Lexeme.next, if_neg hslash, if_neg hb]
          exact hblock fun hrest => hbehind (List.infix_cons hrest)

theorem blanked_line {content : List UInt8} (h : 0x0A ∉ content) :
    Blanked .line content .line := by
  induction content with
  | nil => exact ⟨rfl, rfl⟩
  | cons b rest ih =>
    have hb : b ≠ 0x0A := fun heq => h (heq ▸ List.mem_cons_self)
    refine Blanked.cons (if_neg hb) ?_
    rw [Lexeme.next, if_neg hb]
    exact ih fun hrest => h (List.mem_cons_of_mem _ hrest)

namespace Comment

variable {written blanked : List UInt8}

/-- A comment begins and ends outside of texts and comments, and is seen as the blanks in its
place. -/
theorem seen (h : Comment written blanked) :
    Lexeme.plain.view written = Feed.ofBytes blanked ∧ Lexeme.plain.after written = .plain := by
  cases h with
  | @block content hend =>
    have hopening : Blanked .plain ([0x2F, 0x2A] ++ content ++ [0x2A, 0x2F]) .plain := by
      rw [List.append_assoc]
      exact .cons rfl (.cons rfl ((blanked_block content).1 hend))
    refine ⟨?_, hopening.2⟩
    rw [hopening.1, Feed.ofBytes, List.map_replicate]
    simp
  | @line content hnewline =>
    have hopening : Blanked .plain ([0x2F, 0x2F] ++ content) .line :=
      .cons rfl (.cons rfl (blanked_line hnewline))
    constructor
    · rw [Lexeme.view_append, hopening.1, hopening.2, Feed.ofBytes_append, Feed.ofBytes,
        List.map_replicate]
      simp [Lexeme.view, Lexeme.shown, Feed.ofBytes]
    · rw [Lexeme.after_append, hopening.2]
      rfl

/-- The blanks in the place of a comment pass. -/
theorem passes_blanked (h : Comment written blanked) : Passes .plain blanked .plain := by
  apply Lexeme.passes_plain
  cases h <;> simp

end Comment

/-! ## In front of a comment -/

theorem passes_textBody {body : List UInt8} (h : TextBody body) : Passes .text body .text := by
  induction h with
  | nil => exact .nil _
  | @byte b rest hquote hbackslash _ ih =>
    have hnext : Lexeme.text.next b = .text := by
      rw [Lexeme.next, if_neg hquote, if_neg hbackslash]
    refine .cons rfl ?_
    rw [hnext]
    exact ih
  | @escape b rest _ ih => exact (Lexeme.passes_escape b).append ih

/-- Behind what is closed a text or a comment may begin, unless the feed has been refused. -/
theorem Closed.plain_or_refused {front : List UInt8} (h : Closed front) :
    Lexeme.plain.after front = .plain ∨ none ∈ Lexeme.plain.view front := by
  have hbehind : ∀ {part rest : List UInt8}, Lexeme.plain.after part = .plain →
      (Lexeme.plain.after rest = .plain ∨ none ∈ Lexeme.plain.view rest) →
      Lexeme.plain.after (part ++ rest) = .plain ∨ none ∈ Lexeme.plain.view (part ++ rest) := by
    -- A part that leads back outside leaves the question to what follows it.
    intro part rest hpart hrest
    rw [Lexeme.after_append, Lexeme.view_append, hpart]
    exact hrest.imp_right (List.mem_append_right _)
  induction h with
  | nil => exact .inl rfl
  | @byte b rest hquote hslash _ ih =>
    have hb : Lexeme.plain.after [b] = .plain := by
      rw [Lexeme.after_cons, Lexeme.next, if_neg hquote, if_neg hslash, Lexeme.after_nil]
    exact hbehind hb ih
  | @text body rest hbody _ ih =>
    have htext : Lexeme.plain.after (0x22 :: (body ++ [0x22])) = .plain := by
      change Lexeme.text.after (body ++ [0x22]) = .plain
      rw [Lexeme.after_append, (passes_textBody hbody).after]
      rfl
    have hsplit : 0x22 :: (body ++ 0x22 :: rest) = (0x22 :: (body ++ [0x22])) ++ rest := by simp
    rw [hsplit]
    exact hbehind htext ih
  | comment hcomment _ ih => exact hbehind hcomment.seen.2 ih
  | @slash b rest hstar hslash _ _ =>
    right
    have hrefused : Lexeme.slash.shown b = none := if_neg (not_or.2 ⟨hstar, hslash⟩)
    change none ∈ some 0x20 :: Lexeme.slash.shown b :: (Lexeme.slash.next b).view rest
    simp [hrefused]

/-- A feed that refuses to go on holds no document. -/
theorem document_of_refused {feed : Feed} (h : none ∈ feed) (v : Value) :
    document feed ≠ .ok v := by
  intro hdocument
  rcases takes_document hdocument with ⟨bytes, rfl, -⟩
  simp [Feed.ofBytes] at h

/-- For the reader blanks may stand for a comment. -/
theorem document_comment {front written blanked : List UInt8} (hfront : Closed front)
    (hcomment : Comment written blanked) (back : List UInt8) (v : Value) :
    document (withoutComments (front ++ written ++ back)) = .ok v ↔
      document (withoutComments (front ++ blanked ++ back)) = .ok v := by
  rcases hfront.plain_or_refused with hplain | hrefused
  · -- The comment is met outside of everything, and the two feeds are the same.
    rcases hcomment.seen with ⟨hview, hafter⟩
    have hpasses := hcomment.passes_blanked
    have hfeed : withoutComments (front ++ written ++ back) =
        withoutComments (front ++ blanked ++ back) := by
      apply withoutComments_congr <;> rw [hplain]
      · rw [hview, hpasses.view]
      · rw [hafter, hpasses.after]
    rw [hfeed]
  · -- The feed is refused in front of the comment, so that its bytes no longer matter.
    have hnone : ∀ part, none ∈ withoutComments (front ++ part ++ back) := by
      intro part
      rw [withoutComments_eq_view, Lexeme.view_append, Lexeme.view_append]
      simp [hrefused]
    exact iff_of_false (document_of_refused (hnone _) v) (document_of_refused (hnone _) v)

/-! ## Without comments -/

/-- The state of the reader of comments where no slash is met outside of texts. -/
def Quoting.lexeme : Quoting → Lexeme
  | .outside => .plain
  | .inside => .text
  | .escaped => .escape

theorem Quoting.lexeme_next {q : Quoting} {b : UInt8} (h : q = .outside → b ≠ 0x2F) :
    q.lexeme.next b = (q.next b).lexeme := by
  cases q with
  | outside =>
    change (if b = 0x22 then _ else if b = 0x2F then _ else _) = _
    rw [if_neg (h rfl), Quoting.next]
    split <;> rfl
  | inside =>
    change (if b = 0x22 then _ else if b = 0x5C then _ else _) = _
    rw [Quoting.next]
    split
    · rfl
    · split <;> rfl
  | escaped => rfl

theorem passes_of_slashesQuoted {q : Quoting} {bytes : List UInt8}
    (h : ∀ front back, bytes = front ++ 0x2F :: back → front.foldl Quoting.next q ≠ .outside) :
    Passes q.lexeme bytes (bytes.foldl Quoting.next q).lexeme := by
  induction bytes generalizing q with
  | nil => exact .nil _
  | cons b rest ih =>
    have hslash : q = .outside → b ≠ 0x2F := by
      intro hq hb
      exact h [] rest (by rw [hb]; rfl) hq
    have hshown : q.lexeme.shown b = some b := by
      cases q with
      | outside => exact if_neg (hslash rfl)
      | inside => rfl
      | escaped => rfl
    refine .cons hshown ?_
    rw [Quoting.lexeme_next hslash]
    exact ih fun front back hrest => h (b :: front) back (by rw [hrest]; rfl)

/-- Where every slash stands in a text, the reader finds what it finds without looking for
comments. -/
theorem document_of_slashesQuoted {bytes : List UInt8} (h : SlashesQuoted bytes) (v : Value) :
    document (withoutComments bytes) = .ok v ↔ document (Feed.ofBytes bytes) = .ok v := by
  have hpasses := passes_of_slashesQuoted h
  cases hend : bytes.foldl Quoting.next .outside with
  | outside =>
    rw [hend] at hpasses
    rw [withoutComments_of_passes hpasses]
  | _ =>
    -- The bytes end in a text, which neither reader accepts.
    have hrefused : none ∈ withoutComments bytes := by
      rw [withoutComments_eq_view]
      change none ∈ _ ++ if (Lexeme.after Quoting.outside.lexeme bytes).mayEnd then _ else _
      rw [hpasses.after, hend]
      simp [Quoting.lexeme, Lexeme.mayEnd]
    refine iff_of_false (document_of_refused hrefused v) fun hdocument => ?_
    rcases takes_document hdocument with ⟨taken, hbytes, houtside⟩
    rw [List.append_nil] at hbytes
    obtain rfl : bytes = taken := List.map_injective_iff.2 (fun _ _ => Option.some.inj) hbytes
    rw [hend] at houtside
    cases houtside

end OpcodeAtlas.Json

namespace OpcodeAtlas.MapFile

/-- Comments do not change a map file. Blanks may stand for a comment, wherever it begins, as long as
that is in no text and no other comment: either there is the same map file, or there is none. And
where every slash stands in a text, the map file is that of the plain document. -/
theorem ofBytes_comments :
    (∀ front written blanked back, Json.Closed front → Json.Comment written blanked →
      ∀ file, ofBytes (front ++ written ++ back) = .ok file ↔
        ofBytes (front ++ blanked ++ back) = .ok file) ∧
    (∀ bytes, Json.SlashesQuoted bytes →
      (∀ v, Json.document (Json.Feed.ofBytes bytes) = .ok v → ofBytes bytes = ofValue v) ∧
      ((∀ v, Json.document (Json.Feed.ofBytes bytes) ≠ .ok v) →
        ∃ fault place, ofBytes bytes = .error (.json fault place))) := by
  refine ⟨?_, fun bytes hslashes => ⟨?_, ?_⟩⟩
  · intro front written blanked back hfront hcomment file
    rw [ofBytes_eq_ok_iff, ofBytes_eq_ok_iff]
    simp only [Json.document_comment hfront hcomment back]
  · intro v hdocument
    exact ofBytes_of_document ((Json.document_of_slashesQuoted hslashes v).2 hdocument)
  · intro hrefused
    cases hdocument : Json.document (Json.withoutComments bytes) with
    | ok v => exact absurd ((Json.document_of_slashesQuoted hslashes v).1 hdocument) (hrefused v)
    | error failure =>
      unfold ofBytes
      simp only [hdocument]
      exact ⟨_, _, rfl⟩

/-- Behind a text that ends with a backslash, a comment that begins with `/*/`. -/
theorem ofBytes_comments_afterBackslash :
    ofBytes ([0x7B, 0x22, 0x5C, 0x5C, 0x22] ++ [0x2F, 0x2A, 0x2F, 0x2A, 0x2F] ++
      [0x3A, 0x6E, 0x75, 0x6C, 0x6C, 0x7D]) = .ok ⟨[("\\", .null)]⟩ := by
  have hfront : Json.Closed [0x7B, 0x22, 0x5C, 0x5C, 0x22] :=
    .byte (by decide) (by decide) (@Json.Closed.text [0x5C, 0x5C] [] (.escape .nil) .nil)
  have hcomment := @Json.Comment.block [0x2F] (by decide)
  refine (ofBytes_comments.1 _ _ _ _ hfront hcomment _).2 ?_
  rfl

end OpcodeAtlas.MapFile
