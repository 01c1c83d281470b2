import OpcodeAtlas.Json.Reader
import OpcodeAtlas.Proofs.Json.Quoted

/-!
# OpcodeAtlas.Proofs.Json.Integer — which literals are integers

The reader makes an integer of its decimal text and of nothing else: a fraction or an exponent makes
a literal real, and so do minus zero and digits that do not fit into 64 bits.

* `GivesReal` — what the readers of fractions, exponents and excess digits come to;
* `Digits` — digits behind a number, and the number that they make of it;
* `integerDigits_eq_integer_iff`, `number_eq_integer_iff` — by induction on the digits, the literals
  behind a sign that are integers;
* `scalar_cases` — the parts of a document that are neither lists nor objects, by their first byte;
* `scalar_eq_integer_iff` — those of them that are integers.
-/

namespace OpcodeAtlas.Json

open Text (encode encode_append encode_cons)

variable {negative down any : Bool} {significand exp : Nat} {base : Int} {n : Int}
  {feed rest : Feed}

/-! ## Literals that are real -/

/-- If a number is read, it is real. -/
def GivesReal (outcome : Except Failure (Number × Feed)) : Prop :=
  ∀ n rest, outcome ≠ .ok (.integer n, rest)

theorem givesReal_error (failure : Failure) : GivesReal (.error failure) := nofun

theorem GivesReal.bind {α : Type} {x : Except Failure α} {f : α → Except Failure (Number × Feed)}
    (h : ∀ a, GivesReal (f a)) : GivesReal (x >>= f) := by
  cases x with
  | error failure => exact givesReal_error failure
  | ok a => exact h a

theorem givesReal_finishReal (e : Int) : GivesReal (finishReal negative significand e feed) := by
  unfold finishReal
  split
  · nofun
  · exact givesReal_error _

theorem givesReal_exponentDigits :
    GivesReal (exponentDigits negative significand base down exp feed) := by
  induction feed generalizing exp with
  | nil => exact givesReal_finishReal _
  | cons item more ih =>
    cases item with
    | none => exact givesReal_error _
    | some b =>
      rw [exponentDigits]
      split
      · split
        · exact ih
        · split
          · exact givesReal_error _
          · cases skipDigits more with
            | error failure => exact givesReal_error failure
            | ok behind => nofun
      · exact givesReal_finishReal _

theorem givesReal_unsignedExponent :
    GivesReal (unsignedExponent negative significand base down feed) := by
  unfold unsignedExponent
  split
  · exact givesReal_error _
  · exact givesReal_error _
  · split
    · exact givesReal_exponentDigits
    · exact givesReal_error _

theorem givesReal_exponent : GivesReal (exponent negative significand base feed) := by
  refine GivesReal.bind fun next => ?_
  split <;> exact givesReal_unsignedExponent

theorem givesReal_afterFraction : GivesReal (afterFraction negative significand base feed) := by
  refine GivesReal.bind fun next => ?_
  split
  · split
    · exact givesReal_exponent
    · exact givesReal_finishReal _
  · exact givesReal_finishReal _

theorem givesReal_fraction : GivesReal (fraction negative significand base any feed) := by
  have hfinish : ∀ significand base any behind,
      GivesReal (fraction.finish negative significand base any behind) := by
    intro significand base any behind
    unfold fraction.finish
    split
    · exact givesReal_afterFraction
    · exact givesReal_error _
  induction feed generalizing significand base any with
  | nil => exact hfinish _ _ _ _
  | cons item more ih =>
    cases item with
    | none => exact givesReal_error _
    | some b =>
      rw [fraction]
      split
      · split
        · exact ih
        · exact GivesReal.bind fun behind => givesReal_afterFraction
      · exact hfinish _ _ _ _

theorem givesReal_excessDigits : GivesReal (excessDigits negative significand base feed) := by
  induction feed generalizing base with
  | nil => exact givesReal_finishReal _
  | cons item more ih =>
    cases item with
    | none => exact givesReal_error _
    | some b =>
      rw [excessDigits]
      split
      · exact ih
      · split
        · exact givesReal_fraction
        · split
          · exact givesReal_exponent
          · exact givesReal_finishReal _

/-! ## Digits -/

/-- What follows a number: it can be looked at, and does not go on with the number. -/
def EndsNumber : Feed → Prop
  | [] => True
  | none :: _ => False
  | some b :: _ => digit? b = none ∧ b ≠ 0x2E ∧ isExponentMark b = false

/-- Behind a number the digits make another number of it. -/
inductive Digits : Nat → List UInt8 → Nat → Prop where
  | nil (m : Nat) : Digits m [] m
  | cons {k d m : Nat} {b : UInt8} {bytes : List UInt8} (hdigit : digit? b = some d)
      (hrest : Digits (10 * k + d) bytes m) : Digits k (b :: bytes) m

theorem Digits.le {k m : Nat} {bytes : List UInt8} (h : Digits k bytes m) : k ≤ m := by
  induction h with
  | nil => exact Nat.le_refl _
  | cons _ _ ih => omega

/-- One more digit at the end. -/
theorem Digits.snoc {k d m : Nat} {b : UInt8} {bytes : List UInt8} (h : Digits k bytes m)
    (hdigit : digit? b = some d) : Digits k (bytes ++ [b]) (10 * m + d) := by
  induction h with
  | nil => exact .cons hdigit (.nil _)
  | cons hfirst _ ih => exact .cons hfirst ih

/-- The byte of a digit. -/
def digitByte (d : Nat) : UInt8 := UInt8.ofNat (0x30 + d)

theorem digit?_eq_some_iff {b : UInt8} {d : Nat} :
    digit? b = some d ↔ d < 10 ∧ b = digitByte d := by
  have hcode : d < 10 → (digitByte d).toNat = 0x30 + d := by
    intro hd
    rw [digitByte, UInt8.toNat_ofNat']
    omega
  unfold digit?
  simp only [UInt8.le_iff_toNat_le, UInt8.reduceToNat]
  constructor
  · intro h
    split at h
    · cases h
      refine ⟨by omega, UInt8.toNat_inj.1 ?_⟩
      rw [hcode (by omega)]
      omega
    · cases h
  · rintro ⟨hd, rfl⟩
    rw [hcode hd, if_pos (by omega)]
    simp

/-- The decimal digits of a number. -/
def digitsOf (m : Nat) : List UInt8 := encode (Nat.toDigits 10 m)

theorem digitsOf_digit {d : Nat} (h : d < 10) : digitsOf d = [digitByte d] := by
  have hcode : (Nat.digitChar d).toNat = 0x30 + d := Nat.toNat_digitChar_of_lt_ten h
  rw [digitsOf, Nat.toDigits_of_lt_base h, Text.encode_ascii (by omega), hcode, digitByte]

theorem digitsOf_append {k d : Nat} (hk : 0 < k) (hd : d < 10) :
    digitsOf k ++ [digitByte d] = digitsOf (10 * k + d) := by
  rw [← digitsOf_digit hd, digitsOf, digitsOf, ← encode_append,
    Nat.toDigits_append_toDigits (by decide) hk hd, digitsOf]

/-- Digits behind a number that is not zero are the rest of the digits of what they make of it. -/
theorem Digits.digitsOf_eq {k m : Nat} {bytes : List UInt8} (h : Digits k bytes m) (hk : 0 < k) :
    digitsOf m = digitsOf k ++ bytes := by
  induction h with
  | nil => exact (List.append_nil _).symm
  | @cons k d m b bytes hdigit _ ih =>
    rcases digit?_eq_some_iff.1 hdigit with ⟨hd, rfl⟩
    rw [ih (by omega), ← digitsOf_append hk hd, List.append_assoc]
    rfl

/-- A number that is not zero begins with a digit that is not zero. -/
theorem exists_digits {m : Nat} (hm : 0 < m) :
    ∃ d bytes, 0 < d ∧ d < 10 ∧ digitsOf m = digitByte d :: bytes ∧ Digits d bytes m := by
  induction m using Nat.strongRecOn with
  | ind m ih =>
    by_cases hsmall : m < 10
    · exact ⟨m, [], hm, hsmall, digitsOf_digit hsmall, .nil m⟩
    · -- All digits but the last are those of a tenth of the number.
      rcases ih (m / 10) (by omega) (by omega) with ⟨d, bytes, hpos, hd, hdigits, hfront⟩
      have hlast : digit? (digitByte (m % 10)) = some (m % 10) :=
        digit?_eq_some_iff.2 ⟨by omega, rfl⟩
      have hm' : 10 * (m / 10) + m % 10 = m := by omega
      refine ⟨d, bytes ++ [digitByte (m % 10)], hpos, hd, ?_, ?_⟩
      · rw [← hm', ← digitsOf_append (by omega) (by omega), hdigits, hm']
        rfl
      · have hall := hfront.snoc hlast
        rwa [hm'] at hall

/-- A number begins with a digit, and with a zero only if it is nothing else. -/
theorem digitsOf_cases (m : Nat) :
    ∃ d bytes, d < 10 ∧ digitsOf m = digitByte d :: bytes ∧
      (d = 0 ∧ bytes = [] ∧ m = 0 ∨ 0 < d ∧ Digits d bytes m) := by
  rcases Nat.eq_zero_or_pos m with rfl | hm
  · exact ⟨0, [], by omega, digitsOf_digit (by omega), .inl ⟨rfl, rfl, rfl⟩⟩
  · rcases exists_digits hm with ⟨d, bytes, hpos, hd, hdigits, hrest⟩
    exact ⟨d, bytes, hd, hdigits, .inr ⟨hpos, hrest⟩⟩

/-! ## Literals that are integers -/

/-- Behind a number the feed goes on with digits up to the rest, and they make the other number of
it. -/
def LeadsTo (k : Nat) (feed rest : Feed) (m : Nat) : Prop :=
  ∃ bytes, feed = Feed.ofBytes bytes ++ rest ∧ Digits k bytes m ∧ EndsNumber rest

section LeadsTo

variable {k m d : Nat} {b : UInt8} {more : Feed}

theorem leadsTo_nil : LeadsTo k [] rest m ↔ rest = [] ∧ m = k := by
  constructor
  · rintro ⟨bytes, hfeed, hdigits, -⟩
    rcases List.append_eq_nil_iff.1 hfeed.symm with ⟨hbytes, rfl⟩
    obtain rfl := List.map_eq_nil_iff.1 hbytes
    cases hdigits
    exact ⟨rfl, rfl⟩
  · rintro ⟨rfl, rfl⟩
    exact ⟨[], rfl, .nil _, trivial⟩

theorem not_leadsTo_refused : ¬LeadsTo k (none :: more) rest m := by
  rintro ⟨bytes, hfeed, hdigits, hends⟩
  cases hdigits with
  | nil =>
    obtain rfl : none :: more = rest := hfeed
    exact hends
  | cons => cases hfeed

theorem leadsTo_digit (hdigit : digit? b = some d) :
    LeadsTo k (some b :: more) rest m ↔ LeadsTo (10 * k + d) more rest m := by
  constructor
  · rintro ⟨bytes, hfeed, hdigits, hends⟩
    cases hdigits with
    | nil =>
      obtain rfl : some b :: more = rest := hfeed
      rw [hends.1] at hdigit
      cases hdigit
    | cons hdigit' hrest =>
      cases hfeed
      rw [hdigit] at hdigit'
      cases hdigit'
      exact ⟨_, rfl, hrest, hends⟩
  · rintro ⟨bytes, rfl, hdigits, hends⟩
    exact ⟨b :: bytes, rfl, .cons hdigit hdigits, hends⟩

theorem leadsTo_other (hdigit : digit? b = none) :
    LeadsTo k (some b :: more) rest m ↔ rest = some b :: more ∧ m = k ∧ EndsNumber rest := by
  constructor
  · rintro ⟨bytes, hfeed, hdigits, hends⟩
    cases hdigits with
    | nil => exact ⟨hfeed.symm, rfl, hends⟩
    | cons hdigit' =>
      cases hfeed
      rw [hdigit] at hdigit'
      cases hdigit'
  · rintro ⟨rfl, rfl, hends⟩
    exact ⟨[], rfl, .nil _, hends⟩

theorem LeadsTo.le (h : LeadsTo k feed rest m) : k ≤ m := by
  rcases h with ⟨_, _, hdigits, _⟩
  exact hdigits.le

end LeadsTo

open afterInteger (plain)

/-- Behind all digits a literal is an integer if it ends there. -/
theorem afterInteger_eq_integer_iff (hdigit : ∀ b, feed.head? = some (some b) → digit? b = none) :
    afterInteger negative significand feed = .ok (.integer n, rest) ↔
      rest = feed ∧ EndsNumber feed ∧ plain negative significand = .integer n := by
  cases feed with
  | nil =>
    change Except.ok (plain negative significand, []) = _ ↔ _
    simp [EndsNumber, and_comm, eq_comm]
  | cons item more =>
    cases item with
    | none => simp [afterInteger, peek, bind, Except.bind, EndsNumber]
    | some b =>
      change (if b = 0x2E then fraction negative significand 0 false more
        else if isExponentMark b then exponent negative significand 0 more
        else .ok (plain negative significand, some b :: more)) = _ ↔ _
      split
      · rename_i hpoint
        exact iff_of_false (givesReal_fraction _ _) fun h => h.2.1.2.1 hpoint
      · rename_i hpoint
        split
        · rename_i hmark
          refine iff_of_false (givesReal_exponent _ _) fun h => ?_
          rw [h.2.1.2.2] at hmark
          cases hmark
        · rename_i hmark
          simp [EndsNumber, hdigit b rfl, hpoint, hmark, and_comm, eq_comm]

theorem integerDigits_eq_integer_iff (hfits : significand ≤ maxSignificand) :
    integerDigits negative significand feed = .ok (.integer n, rest) ↔
      ∃ m, LeadsTo significand feed rest m ∧ m ≤ maxSignificand ∧
        plain negative m = .integer n := by
  induction feed generalizing significand with
  | nil =>
    rw [integerDigits, afterInteger_eq_integer_iff (by simp)]
    simp [leadsTo_nil, EndsNumber, hfits]
  | cons item more ih =>
    cases item with
    | none => simp [integerDigits, not_leadsTo_refused]
    | some b =>
      rw [integerDigits]
      cases hdigit : digit? b with
      | none =>
        have hhead : ∀ b', (some b :: more).head? = some (some b') → digit? b' = none := by
          rintro b' ⟨⟩
          exact hdigit
        simp only [leadsTo_other hdigit]
        rw [afterInteger_eq_integer_iff hhead]
        constructor
        · rintro ⟨rfl, hends, hplain⟩
          exact ⟨significand, ⟨rfl, rfl, hends⟩, hfits, hplain⟩
        · rintro ⟨m, ⟨rfl, rfl, hends⟩, -, hplain⟩
          exact ⟨rfl, hends, hplain⟩
      | some d =>
        simp only [leadsTo_digit hdigit]
        by_cases hmore : 10 * significand + d ≤ maxSignificand
        · rw [if_pos hmore, ih hmore]
        · -- The digits no longer fit, and none of those that follow makes the number smaller.
          rw [if_neg hmore]
          refine iff_of_false (givesReal_excessDigits _ _) ?_
          rintro ⟨m, hleads, hm, -⟩
          exact hmore (Nat.le_trans hleads.le hm)

/-- The feed goes on with the decimal digits of a number, and the number ends with them. -/
def Shows (m : Nat) (feed rest : Feed) : Prop :=
  feed = Feed.ofBytes (digitsOf m) ++ rest ∧ EndsNumber rest

/-- The first digit decides: a zero is all of its number, and any other one leads to the number. -/
theorem shows_iff {m : Nat} :
    Shows m feed rest ↔ ∃ b d more, feed = some b :: more ∧ digit? b = some d ∧
      (d = 0 ∧ m = 0 ∧ rest = more ∧ EndsNumber more ∨ 0 < d ∧ LeadsTo d more rest m) := by
  constructor
  · rintro ⟨rfl, hends⟩
    rcases digitsOf_cases m with ⟨d, bytes, hd, hdigits, hcases⟩
    have hdigit : digit? (digitByte d) = some d := digit?_eq_some_iff.2 ⟨hd, rfl⟩
    rw [hdigits]
    refine ⟨digitByte d, d, Feed.ofBytes bytes ++ rest, rfl, hdigit, ?_⟩
    rcases hcases with ⟨rfl, rfl, rfl⟩ | ⟨hpos, hrest⟩
    · exact .inl ⟨rfl, rfl, rfl, hends⟩
    · exact .inr ⟨hpos, bytes, rfl, hrest, hends⟩
  · rintro ⟨b, d, more, rfl, hdigit, hcases⟩
    rcases digit?_eq_some_iff.1 hdigit with ⟨hd, rfl⟩
    rcases hcases with ⟨rfl, rfl, rfl, hends⟩ | ⟨hpos, bytes, rfl, hrest, hends⟩
    · refine ⟨?_, hends⟩
      rw [digitsOf_digit hd]
      rfl
    · refine ⟨?_, hends⟩
      rw [hrest.digitsOf_eq hpos, digitsOf_digit hd]
      rfl

/-- A zero is an integer if the literal ends behind it; another digit is refused. -/
theorem number_zero_eq_integer_iff {b : UInt8} {more : Feed} (hdigit : digit? b = some 0) :
    number negative (some b :: more) = .ok (.integer n, rest) ↔
      rest = more ∧ EndsNumber more ∧ plain negative 0 = .integer n := by
  rw [number, hdigit]
  cases more with
  | nil =>
    change afterInteger negative 0 [] = _ ↔ _
    exact afterInteger_eq_integer_iff (by simp)
  | cons item behind =>
    cases item with
    | none => simp [peek, bind, Except.bind, EndsNumber]
    | some next =>
      cases hnext : digit? next with
      | none =>
        have hhead : ∀ b, (some next :: behind).head? = some (some b) → digit? b = none := by
          rintro b ⟨⟩
          exact hnext
        rw [← afterInteger_eq_integer_iff hhead]
        simp [peek, bind, Except.bind, hnext]
      | some d =>
        simp [peek, bind, Except.bind, hnext, throw, throwThe, MonadExceptOf.throw, EndsNumber]

/-- A literal behind its sign is an integer if it is the digits of a number that fits and ends with
them. -/
theorem number_eq_integer_iff :
    number negative feed = .ok (.integer n, rest) ↔
      ∃ m, Shows m feed rest ∧ m ≤ maxSignificand ∧ plain negative m = .integer n := by
  simp only [shows_iff]
  cases feed with
  | nil => simp [number]
  | cons item more =>
    cases item with
    | none => simp [number]
    | some b =>
      cases hdigit : digit? b with
      | none => simp [number, hdigit]
      | some d =>
        cases d with
        | zero =>
          rw [number_zero_eq_integer_iff hdigit]
          simp [hdigit, and_assoc]
        | succ d =>
          have hd : d + 1 < 10 := (digit?_eq_some_iff.1 hdigit).1
          have hfits : d + 1 ≤ maxSignificand := by
            unfold maxSignificand
            omega
          rw [number, hdigit]
          change integerDigits negative (d + 1) more = _ ↔ _
          rw [integerDigits_eq_integer_iff hfits]
          simp [hdigit]

theorem plain_false_eq_integer_iff {m : Nat} : plain false m = .integer n ↔ n = m := by
  rw [plain, if_pos (by rfl), Number.integer.injEq]
  exact eq_comm

/-- Behind a minus sign, zero is no integer, nor is a number beyond the 64 bits of signed ones. -/
theorem plain_true_eq_integer_iff {m : Nat} :
    plain true m = .integer n ↔ 0 < m ∧ m ≤ 0x8000_0000_0000_0000 ∧ n = -m := by
  rw [plain, if_neg (by decide)]
  split
  · rename_i hrange
    rw [Number.integer.injEq]
    exact ⟨fun h => ⟨hrange.1, hrange.2, h.symm⟩, fun h => h.2.2.symm⟩
  · rename_i hrange
    exact iff_of_false nofun fun h => hrange ⟨h.1, h.2.1⟩

/-! ## Document parts that are integers -/

/-- The decimal text of an integer. -/
def decimal (n : Int) : List UInt8 := Text.utf8 (toString n)

theorem decimal_natCast (m : Nat) : decimal m = digitsOf m := by
  have htext : toString (m : Int) = String.ofList (Nat.toDigits 10 m) := rfl
  rw [decimal, htext, Text.utf8_ofList, digitsOf]

theorem decimal_neg {m : Nat} (hm : 0 < m) : decimal (-m) = 0x2D :: digitsOf m := by
  obtain ⟨k, rfl⟩ := Nat.exists_eq_add_one.2 hm
  have htext : toString (-((k + 1 : Nat) : Int)) =
      String.ofList ('-' :: Nat.toDigits 10 (k + 1)) := by
    apply String.toList_inj.1
    change ("-" ++ String.ofList (Nat.toDigits 10 (k + 1))).toList = _
    simp
  rw [decimal, htext, Text.utf8_ofList, encode_cons, digitsOf]
  rfl

/-- The integers that fit into 64 bits, signed or unsigned. -/
def Fits (n : Int) : Prop := -0x8000_0000_0000_0000 ≤ n ∧ n < 0x1_0000_0000_0000_0000

/-- An integer shows its digits, behind a minus sign if it is negative. -/
theorem decimal_iff :
    feed = Feed.ofBytes (decimal n) ++ rest ∧ EndsNumber rest ↔
      (∃ m : Nat, n = m ∧ Shows m feed rest) ∨
        ∃ (m : Nat) (more : Feed), 0 < m ∧ n = -m ∧ feed = some 0x2D :: more ∧
          Shows m more rest := by
  constructor
  · rintro ⟨rfl, hends⟩
    cases n with
    | ofNat m =>
      refine .inl ⟨m, rfl, ?_, hends⟩
      rw [← decimal_natCast]
      rfl
    | negSucc k =>
      refine .inr ⟨k + 1, Feed.ofBytes (digitsOf (k + 1)) ++ rest, by omega, rfl, ?_, rfl, hends⟩
      have hdecimal := decimal_neg (Nat.zero_lt_succ k)
      change Feed.ofBytes (decimal (-((k + 1 : Nat) : Int))) ++ rest = _
      rw [hdecimal]
      rfl
  · rintro (⟨m, rfl, rfl, hends⟩ | ⟨m, more, hm, rfl, rfl, rfl, hends⟩)
    · exact ⟨by rw [decimal_natCast], hends⟩
    · refine ⟨?_, hends⟩
      rw [decimal_neg hm]
      rfl

/-- The number of a part is the number that was read for it. -/
theorem map_number_eq_ok_iff {outcome : Except Failure (Number × Feed)} {x : Number} :
    (outcome.map fun (x, rest) => (Value.number x, rest)) = .ok (.number x, rest) ↔
      outcome = .ok (x, rest) := by
  rw [Outcome.map_eq_ok]
  constructor
  · rintro ⟨⟨x', rest'⟩, houtcome, heq⟩
    cases heq
    exact houtcome
  · intro h
    exact ⟨(x, rest), h, rfl⟩

/-- A part that begins with a digit is read as a number without sign. -/
theorem scalar_digit {b : UInt8} {d : Nat} (hdigit : digit? b = some d) (feed : Feed) :
    scalar b feed = (number false feed).map fun (x, rest) => (.number x, rest) := by
  have hsome : (digit? b).isSome := by
    rw [hdigit]
    rfl
  have hne : b ≠ 0x6E ∧ b ≠ 0x74 ∧ b ≠ 0x66 ∧ b ≠ 0x2D := by
    refine ⟨?_, ?_, ?_, ?_⟩ <;>
    · rintro rfl
      exact absurd hsome (by decide)
  rcases hne with ⟨hn, ht, hf, hminus⟩
  rw [scalar, if_neg hn, if_neg ht, if_neg hf, if_neg hminus, if_pos hsome]

theorem scalar_minus (more : Feed) :
    scalar 0x2D (some 0x2D :: more) =
      (number true more).map fun (n, rest) => (.number n, rest) := rfl

/-- What is neither a list nor an object is told by its first byte. -/
theorem scalar_cases {b : UInt8} {v : Value} (h : scalar b feed = .ok (v, rest)) :
    b = 0x6E ∧ v = .null ∨ (∃ x, v = .boolean x) ∨
      (b = 0x2D ∨ (digit? b).isSome) ∧ (∃ n, v = .number n) ∨ b = 0x22 ∧ ∃ s, v = .text s := by
  unfold scalar at h
  split at h
  · rename_i hb
    rcases Outcome.map_eq_ok.1 h with ⟨behind, -, heq⟩
    cases heq
    exact .inl ⟨hb, rfl⟩
  split at h
  · rcases Outcome.map_eq_ok.1 h with ⟨behind, -, heq⟩
    cases heq
    exact .inr (.inl ⟨_, rfl⟩)
  split at h
  · rcases Outcome.map_eq_ok.1 h with ⟨behind, -, heq⟩
    cases heq
    exact .inr (.inl ⟨_, rfl⟩)
  split at h
  · rename_i hb
    rcases Outcome.map_eq_ok.1 h with ⟨⟨n, behind⟩, -, heq⟩
    cases heq
    exact .inr (.inr (.inl ⟨.inl hb, n, rfl⟩))
  split at h
  · rename_i hb
    rcases Outcome.map_eq_ok.1 h with ⟨⟨n, behind⟩, -, heq⟩
    cases heq
    exact .inr (.inr (.inl ⟨.inr hb, n, rfl⟩))
  split at h
  · rename_i hb
    rcases Outcome.map_eq_ok.1 h with ⟨⟨s, behind⟩, -, heq⟩
    cases heq
    exact .inr (.inr (.inr ⟨hb, s, rfl⟩))
  · cases h

/-- A part that begins neither with a digit nor with a minus sign is no number. -/
theorem scalar_ne_number {b : UInt8} (hdigit : digit? b = none) (hminus : b ≠ 0x2D) (x : Number) :
    scalar b feed ≠ .ok (.number x, rest) := by
  intro h
  rcases scalar_cases h with ⟨-, ⟨⟩⟩ | ⟨_, ⟨⟩⟩ | ⟨hfirst, -⟩ | ⟨-, _, ⟨⟩⟩
  rw [hdigit] at hfirst
  exact hfirst.elim hminus Bool.noConfusion

/-- At a place where a document part begins, an integer is its decimal text. -/
theorem scalar_eq_integer_iff {b : UInt8} {more : Feed} :
    scalar b (some b :: more) = .ok (.number (.integer n), rest) ↔
      some b :: more = Feed.ofBytes (decimal n) ++ rest ∧ EndsNumber rest ∧ Fits n := by
  rw [← and_assoc, decimal_iff]
  cases hdigit : digit? b with
  | some d =>
    rw [scalar_digit hdigit, map_number_eq_ok_iff, number_eq_integer_iff]
    simp only [plain_false_eq_integer_iff]
    constructor
    · rintro ⟨m, hshows, hm, rfl⟩
      refine ⟨.inl ⟨m, rfl, hshows⟩, ?_⟩
      unfold maxSignificand at hm
      exact ⟨by omega, by omega⟩
    · rintro ⟨⟨m, rfl, hshows⟩ | ⟨m, more', -, -, hfeed, -⟩, -, hfits⟩
      · refine ⟨m, hshows, ?_, rfl⟩
        unfold maxSignificand
        omega
      · cases hfeed
        cases hdigit
  | none =>
    have hno : ¬∃ m : Nat, n = m ∧ Shows m (some b :: more) rest := by
      rintro ⟨m, -, hshows⟩
      rcases shows_iff.1 hshows with ⟨b', d, more', hfeed, hd, -⟩
      cases hfeed
      rw [hdigit] at hd
      cases hd
    by_cases hminus : b = 0x2D
    · subst hminus
      rw [scalar_minus, map_number_eq_ok_iff, number_eq_integer_iff]
      simp only [plain_true_eq_integer_iff]
      constructor
      · rintro ⟨m, hshows, -, hpos, hm, rfl⟩
        exact ⟨.inr ⟨m, more, hpos, rfl, rfl, hshows⟩, by omega, by omega⟩
      · rintro ⟨hyes | ⟨m, more', hpos, rfl, hfeed, hshows⟩, hfits, -⟩
        · exact absurd hyes hno
        · cases hfeed
          refine ⟨m, hshows, ?_, hpos, by omega, rfl⟩
          unfold maxSignificand
          omega
    · refine iff_of_false (scalar_ne_number hdigit hminus _) ?_
      rintro ⟨hyes | ⟨m, more', -, -, hfeed, -⟩, -⟩
      · exact hno hyes
      · cases hfeed
        exact hminus rfl

end OpcodeAtlas.Json
