import OpcodeAtlas.Proofs.Json.Integer
import OpcodeAtlas.Proofs.Json.Taken

/-!
# OpcodeAtlas.Proofs.Json.Part — the three shapes of a document part

A part of a document is a list, an object, or neither; the first byte behind the blanks tells which
(`Part`). The reader of parts succeeds on these three and on nothing else (`value_iff_part`), and
each round of a list or an object either finds the end or takes one item or member
(`items_succ_iff`, `members_succ_iff`). At any depth an integer is its decimal text
(`value_eq_integer_iff`).
-/

namespace OpcodeAtlas.Json

open Outcome (bind_eq_ok map_eq_ok)

variable {feed mid more rest : Feed} {bound depth : Nat} {v : Value}

/-! ## Blanks -/

theorem skipBlank_blanks {blanks : List UInt8} (h : ∀ b ∈ blanks, isBlankByte b = true)
    (rest : Feed) : skipBlank (Feed.ofBytes blanks ++ rest) = skipBlank rest := by
  induction blanks with
  | nil => rfl
  | cons b others ih =>
    change skipBlank (some b :: (Feed.ofBytes others ++ rest)) = _
    rw [skipBlank, if_pos (h b List.mem_cons_self)]
    exact ih fun b' hb' => h b' (List.mem_cons_of_mem _ hb')

/-- Skipping blanks ends in front of a byte that is none, or at the end. -/
theorem skipBlank_eq_ok {behind : Feed} (h : skipBlank feed = .ok behind) :
    ∃ blanks, (∀ b ∈ blanks, isBlankByte b = true) ∧ feed = Feed.ofBytes blanks ++ behind ∧
      ∀ item ∈ behind.head?, ∃ b, item = some b ∧ isBlankByte b = false := by
  induction feed with
  | nil =>
    cases h
    exact ⟨[], by simp, rfl, by simp⟩
  | cons item more ih =>
    cases item with
    | none => cases h
    | some b =>
      rw [skipBlank] at h
      split at h
      · rename_i hblank
        rcases ih h with ⟨blanks, hblanks, rfl, hbehind⟩
        exact ⟨b :: blanks, List.forall_mem_cons.2 ⟨hblank, hblanks⟩, rfl, hbehind⟩
      · rename_i hblank
        cases h
        refine ⟨[], by simp, rfl, ?_⟩
        rintro item ⟨⟩
        exact ⟨b, rfl, Bool.eq_false_iff.2 hblank⟩

theorem skipBlank_of_not_blank {b : UInt8} (h : isBlankByte b = false) (more : Feed) :
    skipBlank (some b :: more) = .ok (some b :: more) := by
  rw [skipBlank, if_neg (Bool.eq_false_iff.1 h)]

/-- Behind the blanks there are no more blanks to skip. -/
theorem skipBlank_fixed (h : skipBlank feed = .ok rest) : skipBlank rest = .ok rest := by
  rcases skipBlank_eq_ok h with ⟨-, -, -, hfirst⟩
  cases rest with
  | nil => rfl
  | cons item more =>
    rcases hfirst item rfl with ⟨b, rfl, hb⟩
    exact skipBlank_of_not_blank hb more

theorem Takes.length_le {s t : Quoting} (h : Takes s feed rest t) : rest.length ≤ feed.length := by
  rcases h with ⟨bytes, rfl, -⟩
  simp

/-! ## Marks -/

section Marks

variable {first : Bool}

/-- A list ends at its closing bracket. -/
theorem closeList_iff : closeList feed = .ok rest ↔ skipBlank feed = .ok (some 0x5D :: rest) := by
  constructor
  · intro h
    rcases bind_eq_ok.1 h with ⟨behind, hskip, h⟩
    split at h
    · cases h
      exact hskip
    · split at h <;> cases h
    · cases h
    · cases h
  · intro h
    exact bind_eq_ok.2 ⟨_, h, rfl⟩

/-- An object ends at its closing brace. -/
theorem closeObject_iff :
    closeObject feed = .ok rest ↔ skipBlank feed = .ok (some 0x7D :: rest) := by
  constructor
  · intro h
    rcases bind_eq_ok.1 h with ⟨behind, hskip, h⟩
    split at h <;> cases h
    exact hskip
  · intro h
    exact bind_eq_ok.2 ⟨_, h, rfl⟩

theorem colon_iff : colon feed = .ok rest ↔ skipBlank feed = .ok (some 0x3A :: rest) := by
  constructor
  · intro h
    rcases bind_eq_ok.1 h with ⟨behind, hskip, h⟩
    split at h <;> cases h
    exact hskip
  · intro h
    exact bind_eq_ok.2 ⟨_, h, rfl⟩

/-- Only blanks may be left behind a document. -/
theorem finish_iff : finish feed = .ok () ↔ skipBlank feed = .ok [] := by
  constructor
  · intro h
    rcases bind_eq_ok.1 h with ⟨behind, hskip, h⟩
    split at h
    · exact hskip
    · cases h
  · intro h
    exact bind_eq_ok.2 ⟨_, h, rfl⟩

/-- There is no further item in front of a closing bracket. -/
theorem nextItem?_none_iff :
    nextItem? first feed = .ok (none, rest) ↔
      skipBlank feed = .ok rest ∧ ∃ more, rest = some 0x5D :: more := by
  constructor
  · intro h
    rcases bind_eq_ok.1 h with ⟨behind, hskip, h⟩
    split at h
    · cases h
      exact ⟨hskip, _, rfl⟩
    · split at h
      · cases h
      · split at h
        · rcases bind_eq_ok.1 h with ⟨place, -, h⟩
          split at h <;> cases h
        · cases h
    · cases h
  · rintro ⟨hskip, more, rfl⟩
    exact bind_eq_ok.2 ⟨_, hskip, rfl⟩

/-- A further item begins with the first byte behind the blanks, which is a comma but for the first
item. -/
theorem nextItem?_some_iff {start : Feed} :
    nextItem? first feed = .ok (some start, start) ↔
      (∃ b more, start = some b :: more ∧ b ≠ 0x5D) ∧
        if first then skipBlank feed = .ok start
        else ∃ more, skipBlank feed = .ok (some 0x2C :: more) ∧ skipBlank more = .ok start := by
  constructor
  · intro h
    rcases bind_eq_ok.1 h with ⟨behind, hskip, h⟩
    split at h
    · cases h
    · rename_i b more hother
      split at h
      · rename_i hfirst
        cases h
        rw [if_pos hfirst]
        exact ⟨⟨b, more, rfl, hother⟩, hskip⟩
      · rename_i hlater
        split at h
        · rename_i hcomma
          subst hcomma
          rcases bind_eq_ok.1 h with ⟨place, hplace, h⟩
          rw [if_neg hlater]
          split at h
          · cases h
          · cases h
          · rename_i hbracket hend
            cases h
            refine ⟨?_, more, hskip, hplace⟩
            -- Behind the blanks stands a byte, as the feed neither ends nor fails there.
            rcases skipBlank_eq_ok hplace with ⟨-, -, -, hfirst⟩
            cases start with
            | nil => exact absurd rfl hend
            | cons item others =>
              rcases hfirst item rfl with ⟨b, rfl, -⟩
              exact ⟨b, others, rfl, fun hb => hbracket others (by rw [hb])⟩
        · cases h
    · cases h
  · rintro ⟨⟨b, more, rfl, hb⟩, hstart⟩
    cases first with
    | true =>
      rw [if_pos rfl] at hstart
      refine bind_eq_ok.2 ⟨_, hstart, ?_⟩
      split
      · rename_i heq
        cases heq
        exact absurd rfl hb
      · rename_i heq
        cases heq
        rfl
      · rename_i hlast
        exact absurd rfl (hlast b more)
    | false =>
      rw [if_neg (by decide)] at hstart
      rcases hstart with ⟨behind, hskip, hplace⟩
      refine bind_eq_ok.2 ⟨_, hskip, ?_⟩
      change (skipBlank behind >>= _) = _
      refine bind_eq_ok.2 ⟨_, hplace, ?_⟩
      split
      · rename_i heq
        cases heq
        exact absurd rfl hb
      · rename_i heq
        cases heq
      · rfl

/-- There is no further member in front of a closing brace. -/
theorem nextKey?_none_iff :
    nextKey? first feed = .ok (none, rest) ↔
      skipBlank feed = .ok rest ∧ ∃ more, rest = some 0x7D :: more := by
  have hkey : ∀ {inner : Feed}, nextKey?.key inner ≠ .ok (none, rest) := by
    intro inner h
    rcases map_eq_ok.1 h with ⟨_, -, heq⟩
    cases heq
  constructor
  · intro h
    rcases bind_eq_ok.1 h with ⟨behind, hskip, h⟩
    split at h
    · cases h
      exact ⟨hskip, _, rfl⟩
    · split at h
      · split at h
        · exact absurd h hkey
        · cases h
      · split at h
        · rcases bind_eq_ok.1 h with ⟨place, -, h⟩
          split at h
          · exact absurd h hkey
          all_goals cases h
        · cases h
    · cases h
  · rintro ⟨hskip, more, rfl⟩
    exact bind_eq_ok.2 ⟨_, hskip, rfl⟩

/-- A further key stands between quotes, behind a comma but for the first one. -/
theorem nextKey?_some_iff {key : String} :
    nextKey? first feed = .ok (some key, rest) ↔ ∃ inner, text inner = .ok (key, rest) ∧
      if first then skipBlank feed = .ok (some 0x22 :: inner)
      else ∃ more, skipBlank feed = .ok (some 0x2C :: more) ∧
        skipBlank more = .ok (some 0x22 :: inner) := by
  have hkey : ∀ {inner : Feed}, nextKey?.key inner = .ok (some key, rest) ↔
      text inner = .ok (key, rest) := by
    intro inner
    rw [nextKey?.key, map_eq_ok]
    constructor
    · rintro ⟨⟨s, behind⟩, htext, heq⟩
      cases heq
      exact htext
    · intro htext
      exact ⟨_, htext, rfl⟩
  constructor
  · intro h
    rcases bind_eq_ok.1 h with ⟨behind, hskip, h⟩
    split at h
    · cases h
    · rename_i b more _
      split at h
      · rename_i hfirst
        split at h
        · rename_i hquote
          subst hquote
          exact ⟨more, hkey.1 h, by rwa [if_pos hfirst]⟩
        · cases h
      · rename_i hlater
        split at h
        · rename_i hcomma
          subst hcomma
          rcases bind_eq_ok.1 h with ⟨place, hplace, h⟩
          split at h
          · rename_i inner
            refine ⟨inner, hkey.1 h, ?_⟩
            rw [if_neg hlater]
            exact ⟨more, hskip, hplace⟩
          all_goals cases h
        · cases h
    · cases h
  · rintro ⟨inner, htext, hstart⟩
    cases first with
    | true => exact bind_eq_ok.2 ⟨_, hstart, hkey.2 htext⟩
    | false =>
      rcases hstart with ⟨more, hskip, hplace⟩
      refine bind_eq_ok.2 ⟨_, hskip, ?_⟩
      exact bind_eq_ok.2 ⟨_, hplace, hkey.2 htext⟩

end Marks

/-! ## Rounds -/

section Rounds

variable {α : Type} {item : Step α} {first : Bool}

theorem enclosed_eq_ok_iff {parts : Step α} {close : Feed → Except Failure Feed} {found : α} :
    enclosed parts close feed = .ok (found, rest) ↔
      ∃ mid, parts feed = .ok (found, mid) ∧ close mid = .ok rest := by
  unfold enclosed
  cases parts feed with
  | error failure => simp
  | ok r =>
    rcases r with ⟨found', mid⟩
    simp only [map_eq_ok, Prod.mk.injEq, Except.ok.injEq]
    constructor
    · rintro ⟨last, hclose, rfl, rfl⟩
      exact ⟨mid, ⟨rfl, rfl⟩, hclose⟩
    · rintro ⟨_, ⟨rfl, rfl⟩, hclose⟩
      exact ⟨rest, hclose, rfl, rfl⟩

/-- A round of a list finds the end, or takes an item and leaves the others to the next rounds. -/
theorem items_succ_iff {found : List α} :
    items item (bound + 1) first feed = .ok (found, rest) ↔
      (nextItem? first feed = .ok (none, rest) ∧ found = []) ∨
      ∃ start behind x others, nextItem? first feed = .ok (some start, start) ∧
        item start = .ok (x, behind) ∧ items item bound false behind = .ok (others, rest) ∧
        found = x :: others := by
  rw [items, bind_eq_ok]
  constructor
  · rintro ⟨⟨start?, place⟩, hnext, h⟩
    cases start? with
    | none =>
      cases h
      exact .inl ⟨hnext, rfl⟩
    | some start =>
      obtain rfl : start = place := (takes_nextItem? hnext).2 start rfl
      rcases bind_eq_ok.1 h with ⟨⟨x, behind⟩, hx, h⟩
      rcases bind_eq_ok.1 h with ⟨⟨others, last⟩, hothers, h⟩
      cases h
      exact .inr ⟨start, behind, x, others, hnext, hx, hothers, rfl⟩
  · rintro (⟨hnext, rfl⟩ | ⟨start, behind, x, others, hnext, hx, hothers, rfl⟩)
    · exact ⟨_, hnext, rfl⟩
    · refine ⟨_, hnext, bind_eq_ok.2 ⟨_, hx, bind_eq_ok.2 ⟨_, hothers, rfl⟩⟩⟩

/-- A round of an object finds the end, or takes a member and leaves the others to the next ones. -/
theorem members_succ_iff {found : List (String × α)} :
    members item (bound + 1) first feed = .ok (found, rest) ↔
      (nextKey? first feed = .ok (none, rest) ∧ found = []) ∨
      ∃ key place start behind x others, nextKey? first feed = .ok (some key, place) ∧
        colon place = .ok start ∧ item start = .ok (x, behind) ∧
        members item bound false behind = .ok (others, rest) ∧ found = (key, x) :: others := by
  rw [members, bind_eq_ok]
  constructor
  · rintro ⟨⟨key?, place⟩, hnext, h⟩
    cases key? with
    | none =>
      cases h
      exact .inl ⟨hnext, rfl⟩
    | some key =>
      rcases bind_eq_ok.1 h with ⟨start, hcolon, h⟩
      rcases bind_eq_ok.1 h with ⟨⟨x, behind⟩, hx, h⟩
      rcases bind_eq_ok.1 h with ⟨⟨others, last⟩, hothers, h⟩
      cases h
      exact .inr ⟨key, place, start, behind, x, others, hnext, hcolon, hx, hothers, rfl⟩
  · rintro (⟨hnext, rfl⟩ | ⟨key, place, start, behind, x, others, hnext, hcolon, hx, hothers, rfl⟩)
    · exact ⟨_, hnext, rfl⟩
    · refine ⟨_, hnext, bind_eq_ok.2 ⟨_, hcolon, ?_⟩⟩
      exact bind_eq_ok.2 ⟨_, hx, bind_eq_ok.2 ⟨_, hothers, rfl⟩⟩

end Rounds

/-! ## Parts -/

/-- What the reader of parts takes, by the first byte behind the blanks. -/
inductive Part (bound : Nat) : (depth : Nat) → (feed : Feed) → Value → (rest : Feed) → Prop where
  | list {depth : Nat} {feed more mid rest : Feed} {found : List Value}
    (hskip : skipBlank feed = .ok (some 0x5B :: more))
    (hitems : items (value bound depth) bound true more = .ok (found, mid))
    (hclose : closeList mid = .ok rest) : Part bound (depth + 1) feed (.list found) rest
  | object {depth : Nat} {feed more mid rest : Feed} {found : List (String × Value)}
    (hskip : skipBlank feed = .ok (some 0x7B :: more))
    (hmembers : members (value bound depth) bound true more = .ok (found, mid))
    (hclose : closeObject mid = .ok rest) : Part bound (depth + 1) feed (.object found) rest
  | scalar {depth : Nat} {feed more rest : Feed} {b : UInt8} {v : Value}
    (hskip : skipBlank feed = .ok (some b :: more)) (hmark : ¬(b = 0x5B ∨ b = 0x7B))
    (hscalar : scalar b (some b :: more) = .ok (v, rest)) : Part bound depth feed v rest

theorem value_iff_part : value bound depth feed = .ok (v, rest) ↔ Part bound depth feed v rest := by
  constructor
  · intro h
    cases depth with
    | zero =>
      rcases bind_eq_ok.1 h with ⟨behind, hskip, h⟩
      split at h
      · split at h
        · cases h
        · rename_i hmark
          exact .scalar hskip hmark h
      · cases h
    | succ depth =>
      rcases bind_eq_ok.1 h with ⟨behind, hskip, h⟩
      split at h
      · split at h
        · rename_i hopening
          subst hopening
          rcases bind_eq_ok.1 h with ⟨⟨found, last⟩, hparts, h⟩
          cases h
          rcases enclosed_eq_ok_iff.1 hparts with ⟨mid, hitems, hclose⟩
          exact .list hskip hitems hclose
        · split at h
          · rename_i hopening
            subst hopening
            rcases bind_eq_ok.1 h with ⟨⟨found, last⟩, hparts, h⟩
            cases h
            rcases enclosed_eq_ok_iff.1 hparts with ⟨mid, hmembers, hclose⟩
            exact .object hskip hmembers hclose
          · rename_i hlist hobject
            exact .scalar hskip (not_or.2 ⟨hlist, hobject⟩) h
      · cases h
  · intro h
    cases h with
    | list hskip hitems hclose =>
      rw [value, hskip, Outcome.ok_bind]
      exact bind_eq_ok.2 ⟨_, enclosed_eq_ok_iff.2 ⟨_, hitems, hclose⟩, rfl⟩
    | object hskip hmembers hclose =>
      rw [value, hskip, Outcome.ok_bind]
      exact bind_eq_ok.2 ⟨_, enclosed_eq_ok_iff.2 ⟨_, hmembers, hclose⟩, rfl⟩
    | scalar hskip hmark hscalar =>
      cases depth with
      | zero =>
        rw [value, hskip, Outcome.ok_bind]
        simpa only [if_neg hmark] using hscalar
      | succ depth =>
        rw [value, hskip, Outcome.ok_bind]
        simpa only [if_neg (not_or.1 hmark).1, if_neg (not_or.1 hmark).2] using hscalar

/-- An integer begins with a digit or a minus sign. -/
theorem decimal_first (n : Int) :
    ∃ b bytes, decimal n = b :: bytes ∧ isBlankByte b = false ∧ ¬(b = 0x5B ∨ b = 0x7B) := by
  cases n with
  | ofNat m =>
    rcases digitsOf_cases m with ⟨d, bytes, hd, hdigits, -⟩
    have hall : ∀ d < 10, isBlankByte (digitByte d) = false ∧
        ¬(digitByte d = 0x5B ∨ digitByte d = 0x7B) := by decide
    exact ⟨digitByte d, bytes, (decimal_natCast m).trans hdigits, hall d hd⟩
  | negSucc k =>
    exact ⟨0x2D, digitsOf (k + 1), decimal_neg (Nat.zero_lt_succ k), by decide, by decide⟩

/-- A document part is an integer when it is the decimal text of one that fits into 64 bits, behind
any blanks and at any depth. -/
theorem value_eq_integer_iff {n : Int} :
    value bound depth feed = .ok (.number (.integer n), rest) ↔
      ∃ blanks, (∀ b ∈ blanks, isBlankByte b = true) ∧
        feed = Feed.ofBytes (blanks ++ decimal n) ++ rest ∧ EndsNumber rest ∧ Fits n := by
  constructor
  · intro h
    cases value_iff_part.1 h with
    | scalar hskip hmark hscalar =>
      rcases skipBlank_eq_ok hskip with ⟨blanks, hblanks, rfl, -⟩
      rcases scalar_eq_integer_iff.1 hscalar with ⟨hfeed, hends, hfits⟩
      refine ⟨blanks, hblanks, ?_, hends, hfits⟩
      rw [hfeed, Feed.ofBytes_append, List.append_assoc]
  · rintro ⟨blanks, hblanks, rfl, hends, hfits⟩
    rcases decimal_first n with ⟨b, bytes, hdecimal, hb, hmark⟩
    have hfeed : Feed.ofBytes (decimal n) ++ rest = some b :: (Feed.ofBytes bytes ++ rest) := by
      rw [hdecimal]
      rfl
    refine value_iff_part.2 (.scalar ?_ hmark (scalar_eq_integer_iff.2 ⟨hfeed.symm, hends, hfits⟩))
    rw [Feed.ofBytes_append, List.append_assoc, hfeed, skipBlank_blanks hblanks]
    exact skipBlank_of_not_blank hb _

/-- The blanks in front of a part do not matter. -/
theorem value_congr {feed' : Feed} (h : skipBlank feed = skipBlank feed') :
    value bound depth feed = value bound depth feed' := by
  cases depth with
  | zero => rw [value, value, h]
  | succ depth => rw [value, value, h]

theorem value_skipBlank (h : skipBlank feed = .ok mid) :
    value bound depth feed = value bound depth mid :=
  value_congr (h.trans (skipBlank_fixed h).symm)

theorem skipBlank_of_value (h : value bound depth feed = .ok (v, rest)) :
    ∃ b more, skipBlank feed = .ok (some b :: more) := by
  cases value_iff_part.1 h with
  | list hskip => exact ⟨_, _, hskip⟩
  | object hskip => exact ⟨_, _, hskip⟩
  | scalar hskip => exact ⟨_, _, hskip⟩

end OpcodeAtlas.Json
