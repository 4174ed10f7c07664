import Cohort.Text.Utf8

/-! UTF-8 in both directions: a text is read back from its bytes, and no other bytes are read as
that text. Each direction goes character by character, one lemma for each count of bytes. -/

namespace Cohort.Text

theorem continues_iff {low high : Nat} {b : UInt8} :
    continues low high b = true ↔ low ≤ b.toNat ∧ b.toNat ≤ high := by
  simp only [continues, Bool.and_eq_true, decide_eq_true_eq]

theorem toNat_toUInt8 {n : Nat} (small : n < 0x100) : n.toUInt8.toNat = n :=
  Nat.mod_eq_of_lt small

theorem toUInt8_eq {n : Nat} {a : UInt8} (same : n = a.toNat) : n.toUInt8 = a := by
  rw [same]
  exact UInt8.ofNat_toNat

theorem toNat_ofNat {n : Nat} (valid : n.isValidChar) : (Char.ofNat n).toNat = n := by
  rw [Char.ofNat, dif_pos valid]
  rfl

/-! ### One character off the front -/

section Steps

variable {start : Nat} {a b c d : UInt8} {rest : List UInt8} {low high : Nat}

theorem decodeFrom_single (lead : Lead.of a = .single) :
    decodeFrom start (a :: rest) = (Char.ofNat a.toNat :: ·) <$> decodeFrom (start + 1) rest := by
  rw [decodeFrom.eq_def]
  simp only [lead]

theorem decodeFrom_pair (lead : Lead.of a = .pair) (second : continues 0x80 0xBF b = true) :
    decodeFrom start (a :: b :: rest) =
      (Char.ofNat ((a.toNat - 0xC0) * 0x40 + (b.toNat - 0x80)) :: ·)
        <$> decodeFrom (start + 2) rest := by
  rw [decodeFrom.eq_def]
  simp only [lead, second, if_true]

theorem decodeFrom_triple (lead : Lead.of a = .triple low high)
    (second : continues low high b = true) (third : continues 0x80 0xBF c = true) :
    decodeFrom start (a :: b :: c :: rest) =
      (Char.ofNat ((a.toNat - 0xE0) * 0x1000 + (b.toNat - 0x80) * 0x40 + (c.toNat - 0x80)) :: ·)
        <$> decodeFrom (start + 3) rest := by
  rw [decodeFrom.eq_def]
  simp only [lead, second, third, Bool.not_true, Bool.false_eq_true, if_false]

theorem decodeFrom_quadruple (lead : Lead.of a = .quadruple low high)
    (second : continues low high b = true) (third : continues 0x80 0xBF c = true)
    (fourth : continues 0x80 0xBF d = true) :
    decodeFrom start (a :: b :: c :: d :: rest) =
      (Char.ofNat ((a.toNat - 0xF0) * 0x40000 + (b.toNat - 0x80) * 0x1000
          + (c.toNat - 0x80) * 0x40 + (d.toNat - 0x80)) :: ·) <$> decodeFrom (start + 4) rest := by
  rw [decodeFrom.eq_def]
  simp only [lead, second, third, fourth, Bool.not_true, Bool.false_eq_true, if_false]

end Steps

/-! ### What was written is read -/

section Written

variable {start n : Nat} {rest : List UInt8}

theorem decodeFrom_one (below : n < 0x80) :
    decodeFrom start (n.toUInt8 :: rest) = (Char.ofNat n :: ·) <$> decodeFrom (start + 1) rest := by
  have a := toNat_toUInt8 (show n < 0x100 by omega)
  have lead : Lead.of n.toUInt8 = .single := by
    simp only [Lead.of, a, if_pos below]
  rw [decodeFrom_single lead, a]

theorem decodeFrom_two (above : 0x80 ≤ n) (below : n < 0x800) :
    decodeFrom start ((0xC0 + n / 0x40).toUInt8 :: (0x80 + n % 0x40).toUInt8 :: rest) =
      (Char.ofNat n :: ·) <$> decodeFrom (start + 2) rest := by
  have a := toNat_toUInt8 (show 0xC0 + n / 0x40 < 0x100 by omega)
  have b := toNat_toUInt8 (show 0x80 + n % 0x40 < 0x100 by omega)
  have lead : Lead.of (0xC0 + n / 0x40).toUInt8 = .pair := by
    simp only [Lead.of, a]
    rw [if_neg (by omega), if_neg (by omega), if_pos (by omega)]
  have second : continues 0x80 0xBF (0x80 + n % 0x40).toUInt8 = true :=
    continues_iff.mpr (by omega)
  have joined : (0xC0 + n / 0x40 - 0xC0) * 0x40 + (0x80 + n % 0x40 - 0x80) = n := by omega
  rw [decodeFrom_pair lead second, a, b, joined]

theorem decodeFrom_three (above : 0x800 ≤ n) (below : n < 0x10000) (valid : n.isValidChar) :
    decodeFrom start ((0xE0 + n / 0x1000).toUInt8 :: (0x80 + n / 0x40 % 0x40).toUInt8
        :: (0x80 + n % 0x40).toUInt8 :: rest) =
      (Char.ofNat n :: ·) <$> decodeFrom (start + 3) rest := by
  have a := toNat_toUInt8 (show 0xE0 + n / 0x1000 < 0x100 by omega)
  have b := toNat_toUInt8 (show 0x80 + n / 0x40 % 0x40 < 0x100 by omega)
  have c := toNat_toUInt8 (show 0x80 + n % 0x40 < 0x100 by omega)
  -- surrogates and overlong forms are the bytes that the lead's own range leaves out
  obtain ⟨low, high, lead, range⟩ : ∃ low high,
      Lead.of (0xE0 + n / 0x1000).toUInt8 = .triple low high ∧
        low ≤ 0x80 + n / 0x40 % 0x40 ∧ 0x80 + n / 0x40 % 0x40 ≤ high := by
    simp only [Lead.of, a]
    rw [if_neg (by omega), if_neg (by omega), if_neg (by omega)]
    split
    · exact ⟨_, _, rfl, by omega⟩
    split
    · exact ⟨_, _, rfl, by omega⟩
    rw [if_pos (by omega)]
    exact ⟨_, _, rfl, by omega⟩
  have second : continues low high (0x80 + n / 0x40 % 0x40).toUInt8 = true :=
    continues_iff.mpr (by omega)
  have third : continues 0x80 0xBF (0x80 + n % 0x40).toUInt8 = true :=
    continues_iff.mpr (by omega)
  have joined : (0xE0 + n / 0x1000 - 0xE0) * 0x1000 + (0x80 + n / 0x40 % 0x40 - 0x80) * 0x40
      + (0x80 + n % 0x40 - 0x80) = n := by omega
  rw [decodeFrom_triple lead second third, a, b, c, joined]

theorem decodeFrom_four (above : 0x10000 ≤ n) (valid : n.isValidChar) :
    decodeFrom start ((0xF0 + n / 0x40000).toUInt8 :: (0x80 + n / 0x1000 % 0x40).toUInt8
        :: (0x80 + n / 0x40 % 0x40).toUInt8 :: (0x80 + n % 0x40).toUInt8 :: rest) =
      (Char.ofNat n :: ·) <$> decodeFrom (start + 4) rest := by
  have a := toNat_toUInt8 (show 0xF0 + n / 0x40000 < 0x100 by omega)
  have b := toNat_toUInt8 (show 0x80 + n / 0x1000 % 0x40 < 0x100 by omega)
  have c := toNat_toUInt8 (show 0x80 + n / 0x40 % 0x40 < 0x100 by omega)
  have d := toNat_toUInt8 (show 0x80 + n % 0x40 < 0x100 by omega)
  obtain ⟨low, high, lead, range⟩ : ∃ low high,
      Lead.of (0xF0 + n / 0x40000).toUInt8 = .quadruple low high ∧
        low ≤ 0x80 + n / 0x1000 % 0x40 ∧ 0x80 + n / 0x1000 % 0x40 ≤ high := by
    simp only [Lead.of, a]
    rw [if_neg (by omega), if_neg (by omega), if_neg (by omega), if_neg (by omega),
      if_neg (by omega), if_neg (by omega)]
    split
    · exact ⟨_, _, rfl, by omega⟩
    split
    · exact ⟨_, _, rfl, by omega⟩
    rw [if_pos (by omega)]
    exact ⟨_, _, rfl, by omega⟩
  have second : continues low high (0x80 + n / 0x1000 % 0x40).toUInt8 = true :=
    continues_iff.mpr (by omega)
  have third : continues 0x80 0xBF (0x80 + n / 0x40 % 0x40).toUInt8 = true :=
    continues_iff.mpr (by omega)
  have fourth : continues 0x80 0xBF (0x80 + n % 0x40).toUInt8 = true :=
    continues_iff.mpr (by omega)
  have joined : (0xF0 + n / 0x40000 - 0xF0) * 0x40000 + (0x80 + n / 0x1000 % 0x40 - 0x80) * 0x1000
      + (0x80 + n / 0x40 % 0x40 - 0x80) * 0x40 + (0x80 + n % 0x40 - 0x80) = n := by omega
  rw [decodeFrom_quadruple lead second third fourth, a, b, c, d, joined]

end Written

/-- A character that was written is read back, whatever follows. -/
theorem decodeFrom_encodeChar (start : Nat) (c : Char) (rest : List UInt8) :
    decodeFrom start (encodeChar c ++ rest) =
      (c :: ·) <$> decodeFrom (start + (encodeChar c).length) rest := by
  have valid : c.toNat.isValidChar := c.valid
  have whole := Char.ofNat_toNat c
  simp only [encodeChar]
  generalize c.toNat = n at valid whole
  subst whole
  by_cases one : n < 0x80
  · simp only [if_pos one]
    exact decodeFrom_one one
  by_cases two : n < 0x800
  · simp only [if_neg one, if_pos two]
    exact decodeFrom_two (by omega) two
  by_cases three : n < 0x10000
  · simp only [if_neg one, if_neg two, if_pos three]
    exact decodeFrom_three (by omega) three valid
  · simp only [if_neg one, if_neg two, if_neg three]
    exact decodeFrom_four (by omega) valid

theorem decodeFrom_flatMap (start : Nat) (cs : List Char) :
    decodeFrom start (cs.flatMap encodeChar) = .ok cs := by
  induction cs generalizing start with
  | nil => rfl
  | cons c cs ih =>
    rw [List.flatMap_cons, decodeFrom_encodeChar, ih]
    rfl

/-- A text is read back from its bytes. -/
theorem decode_encode (text : String) : decode (encode text) = .ok text := by
  rw [decode, encode, decodeFrom_flatMap]
  exact congrArg Except.ok String.ofList_toList

/-! ### What was read is written -/

/-- What a leading byte says of itself and of the byte after it. -/
def Lead.Range (a : UInt8) : Lead → Prop
  | .single => a.toNat < 0x80
  | .pair => 0xC2 ≤ a.toNat ∧ a.toNat < 0xE0
  | .triple low high => 0xE0 ≤ a.toNat ∧ a.toNat < 0xF0 ∧ 0x80 ≤ low ∧ high ≤ 0xBF ∧
      (a.toNat = 0xE0 → 0xA0 ≤ low) ∧ (a.toNat = 0xED → high ≤ 0x9F)
  | .quadruple low high => 0xF0 ≤ a.toNat ∧ a.toNat ≤ 0xF4 ∧ 0x80 ≤ low ∧ high ≤ 0xBF ∧
      (a.toNat = 0xF0 → 0x90 ≤ low) ∧ (a.toNat = 0xF4 → high ≤ 0x8F)
  | .none => True

theorem Lead.range_of (a : UInt8) : (Lead.of a).Range a := by
  unfold Lead.of
  dsimp only
  refine iteInduction (motive := Lead.Range a) (fun below => below) fun single => ?_
  refine iteInduction (motive := Lead.Range a) (fun _ => trivial) fun overlong => ?_
  refine iteInduction (motive := Lead.Range a) (fun below => ⟨by omega, below⟩) fun pair => ?_
  have triple {low high : Nat} (below : a.toNat < 0xF0) (least : 0x80 ≤ low) (most : high ≤ 0xBF)
      (overlong : a.toNat = 0xE0 → 0xA0 ≤ low) (surrogate : a.toNat = 0xED → high ≤ 0x9F) :
      (Lead.triple low high).Range a := ⟨by omega, below, least, most, overlong, surrogate⟩
  refine iteInduction (motive := Lead.Range a) (fun same => ?_) fun first => ?_
  · exact triple (by omega) (by omega) (by omega) (by omega) (by omega)
  refine iteInduction (motive := Lead.Range a) (fun same => ?_) fun surrogate => ?_
  · exact triple (by omega) (by omega) (by omega) (by omega) (by omega)
  refine iteInduction (motive := Lead.Range a) (fun below => ?_) fun last => ?_
  · exact triple below (by omega) (by omega) (by omega) (by omega)
  have quadruple {low high : Nat} (below : a.toNat ≤ 0xF4) (least : 0x80 ≤ low) (most : high ≤ 0xBF)
      (overlong : a.toNat = 0xF0 → 0x90 ≤ low) (beyond : a.toNat = 0xF4 → high ≤ 0x8F) :
      (Lead.quadruple low high).Range a := ⟨by omega, below, least, most, overlong, beyond⟩
  refine iteInduction (motive := Lead.Range a) (fun same => ?_) fun first => ?_
  · exact quadruple (by omega) (by omega) (by omega) (by omega) (by omega)
  refine iteInduction (motive := Lead.Range a) (fun below => ?_) fun middle => ?_
  · exact quadruple (by omega) (by omega) (by omega) (by omega) (by omega)
  refine iteInduction (motive := Lead.Range a) (fun same => ?_) fun _ => trivial
  exact quadruple (by omega) (by omega) (by omega) (by omega) (by omega)

theorem Lead.range {a : UInt8} {lead : Lead} (known : Lead.of a = lead) : lead.Range a :=
  known ▸ range_of a

section Read

variable {a b c d : UInt8} {low high : Nat}

theorem encodeChar_single (lead : Lead.of a = .single) :
    encodeChar (Char.ofNat a.toNat) = [a] := by
  have range : a.toNat < 0x80 := Lead.range lead
  have number : (Char.ofNat a.toNat).toNat = a.toNat := toNat_ofNat (by omega)
  simp only [encodeChar, number, if_pos range, toUInt8_eq rfl]

theorem encodeChar_pair (lead : Lead.of a = .pair) (second : continues 0x80 0xBF b = true) :
    encodeChar (Char.ofNat ((a.toNat - 0xC0) * 0x40 + (b.toNat - 0x80))) = [a, b] := by
  have range : 0xC2 ≤ a.toNat ∧ a.toNat < 0xE0 := Lead.range lead
  rw [continues_iff] at second
  generalize code : (a.toNat - 0xC0) * 0x40 + (b.toNat - 0x80) = n
  have number : (Char.ofNat n).toNat = n := toNat_ofNat (by omega)
  simp only [encodeChar, number]
  rw [if_neg (by omega), if_pos (by omega), toUInt8_eq (a := a) (by omega),
    toUInt8_eq (a := b) (by omega)]

theorem encodeChar_triple (lead : Lead.of a = .triple low high)
    (second : continues low high b = true) (third : continues 0x80 0xBF c = true) :
    encodeChar (Char.ofNat ((a.toNat - 0xE0) * 0x1000 + (b.toNat - 0x80) * 0x40
      + (c.toNat - 0x80))) = [a, b, c] := by
  obtain ⟨least, most, lowest, highest, overlong, surrogate⟩ := Lead.range lead
  rw [continues_iff] at second third
  generalize code : (a.toNat - 0xE0) * 0x1000 + (b.toNat - 0x80) * 0x40 + (c.toNat - 0x80) = n
  have number : (Char.ofNat n).toNat = n := toNat_ofNat (by omega)
  simp only [encodeChar, number]
  rw [if_neg (by omega), if_neg (by omega), if_pos (by omega), toUInt8_eq (a := a) (by omega),
    toUInt8_eq (a := b) (by omega), toUInt8_eq (a := c) (by omega)]

theorem encodeChar_quadruple (lead : Lead.of a = .quadruple low high)
    (second : continues low high b = true) (third : continues 0x80 0xBF c = true)
    (fourth : continues 0x80 0xBF d = true) :
    encodeChar (Char.ofNat ((a.toNat - 0xF0) * 0x40000 + (b.toNat - 0x80) * 0x1000
      + (c.toNat - 0x80) * 0x40 + (d.toNat - 0x80))) = [a, b, c, d] := by
  obtain ⟨least, most, lowest, highest, overlong, beyond⟩ := Lead.range lead
  rw [continues_iff] at second third fourth
  generalize code : (a.toNat - 0xF0) * 0x40000 + (b.toNat - 0x80) * 0x1000
    + (c.toNat - 0x80) * 0x40 + (d.toNat - 0x80) = n
  have number : (Char.ofNat n).toNat = n := toNat_ofNat (by omega)
  simp only [encodeChar, number]
  rw [if_neg (by omega), if_neg (by omega), if_neg (by omega), toUInt8_eq (a := a) (by omega),
    toUInt8_eq (a := b) (by omega), toUInt8_eq (a := c) (by omega), toUInt8_eq (a := d) (by omega)]

end Read

/-- One more character in front of what was read. -/
theorem flatMap_of_map {c : Char} {used rest : List UInt8} {later : Except Utf8Fault (List Char)}
    {cs : List Char} (written : encodeChar c = used)
    (others : ∀ {cs}, later = .ok cs → cs.flatMap encodeChar = rest)
    (read : (c :: ·) <$> later = .ok cs) : cs.flatMap encodeChar = used ++ rest := by
  cases later with
  | error fault => cases read
  | ok tail =>
    cases read
    rw [List.flatMap_cons, written, others rfl]

theorem flatMap_of_decodeFrom {start : Nat} {bytes : List UInt8} {cs : List Char}
    (read : decodeFrom start bytes = .ok cs) : cs.flatMap encodeChar = bytes := by
  fun_induction decodeFrom start bytes generalizing cs with
  | case1 => cases read; rfl
  | case2 start a rest lead others => exact flatMap_of_map (encodeChar_single lead) others read
  | case5 start a lead b rest second others =>
    exact flatMap_of_map (encodeChar_pair lead second) others read
  | case11 start a low high lead b c rest second third others =>
    exact flatMap_of_map (encodeChar_triple lead (by simpa using second) (by simpa using third))
      others read
  | case18 start a low high lead b c d rest second third fourth others =>
    exact flatMap_of_map (encodeChar_quadruple lead (by simpa using second) (by simpa using third)
      (by simpa using fourth)) others read
  -- the remaining cases are the faults
  | _ => cases read

/-- Only the bytes of a text are read as that text. -/
theorem encode_of_decode {bytes : List UInt8} {text : String} (read : decode bytes = .ok text) :
    encode text = bytes := by
  unfold decode at read
  cases chars : decodeFrom 0 bytes with
  | error fault => rw [chars] at read; cases read
  | ok cs =>
    rw [chars] at read
    cases read
    rw [encode, String.toList_ofList, flatMap_of_decodeFrom chars]

end Cohort.Text
