import JuceWorkbench.Text.Utf8

/-! Every text is read back from its octets, and so is a text that was added to octets which were
one already: `decode_append_encode`. -/

namespace JuceWorkbench.Text.Utf8

theorem toNat_toUInt8 {n : Nat} (small : n < 256) : n.toUInt8.toNat = n := by
  simp [Nat.toUInt8, Nat.mod_eq_of_lt small]

theorem toNat_cases (c : Char) :
    c.toNat < 0x80 ∨ (0x80 ≤ c.toNat ∧ c.toNat < 0x800) ∨
      (0x800 ≤ c.toNat ∧ c.toNat < 0x10000 ∧ (c.toNat < 0xd800 ∨ 0xdfff < c.toNat)) ∨
      (0x10000 ≤ c.toNat ∧ c.toNat < 0x110000) := by
  have valid : c.toNat < 0xd800 ∨ (0xdfff < c.toNat ∧ c.toNat < 0x110000) := c.valid
  omega

theorem isTail_toUInt8 {n : Nat} (low : 0x80 ≤ n) (high : n < 0xc0) : isTail n.toUInt8 = true := by
  unfold isTail
  rw [toNat_toUInt8 (by omega)]
  simp [low, high]

theorem decodeFrom_encodeChar (position : Nat) (c : Char) (rest : List UInt8) :
    ∃ next, decodeFrom position (encodeChar c ++ rest) = (decodeFrom next rest).map (c :: ·) := by
  have whole : Char.ofNat c.toNat = c := Char.ofNat_toNat c
  have sizes := toNat_cases c
  unfold encodeChar
  generalize c.toNat = n at whole sizes
  dsimp only
  rcases sizes with one | two | three | four
  · refine ⟨position + 1, ?_⟩
    rw [if_pos one, List.singleton_append, decodeFrom.eq_def]
    simp only [toNat_toUInt8 (show n < 256 by omega), if_pos one, whole]
  · refine ⟨position + 2, ?_⟩
    have first := toNat_toUInt8 (show 0xc0 + n / 64 < 256 by omega)
    have second := toNat_toUInt8 (show 0x80 + n % 64 < 256 by omega)
    have tail := isTail_toUInt8 (show 0x80 ≤ 0x80 + n % 64 by omega) (by omega)
    have value : (0xc0 + n / 64 - 0xc0) * 64 + (0x80 + n % 64) % 64 = n := by omega
    rw [if_neg (by omega), if_pos two.2, List.cons_append, List.singleton_append, decodeFrom.eq_def]
    simp only [first, tail, tailBits, second, value, whole, if_true]
    rw [if_neg (by omega), if_neg (by omega), if_pos (by omega)]
  · refine ⟨position + 3, ?_⟩
    have first := toNat_toUInt8 (show 0xe0 + n / 4096 < 256 by omega)
    have second := toNat_toUInt8 (show 0x80 + n / 64 % 64 < 256 by omega)
    have third := toNat_toUInt8 (show 0x80 + n % 64 < 256 by omega)
    have follows : mayFollow (0xe0 + n / 4096).toUInt8 (0x80 + n / 64 % 64).toUInt8 = true := by
      unfold mayFollow
      rw [isTail_toUInt8 (by omega) (by omega), first, second]
      simp only [Bool.true_and, Bool.and_eq_true, Bool.or_eq_true, bne_iff_ne, decide_eq_true_eq]
      omega
    have tail := isTail_toUInt8 (show 0x80 ≤ 0x80 + n % 64 by omega) (by omega)
    have value : ((0xe0 + n / 4096 - 0xe0) * 64 + (0x80 + n / 64 % 64) % 64) * 64 +
        (0x80 + n % 64) % 64 = n := by omega
    rw [if_neg (by omega), if_neg (by omega), if_pos three.2.1]
    simp only [List.cons_append, List.nil_append]
    rw [decodeFrom.eq_def]
    simp only [first, follows, tail, tailBits, second, third, value, whole, if_true]
    rw [if_neg (by omega), if_neg (by omega), if_neg (by omega), if_pos (by omega)]
  · refine ⟨position + 4, ?_⟩
    have first := toNat_toUInt8 (show 0xf0 + n / 262144 < 256 by omega)
    have second := toNat_toUInt8 (show 0x80 + n / 4096 % 64 < 256 by omega)
    have third := toNat_toUInt8 (show 0x80 + n / 64 % 64 < 256 by omega)
    have fourth := toNat_toUInt8 (show 0x80 + n % 64 < 256 by omega)
    have follows : mayFollow (0xf0 + n / 262144).toUInt8 (0x80 + n / 4096 % 64).toUInt8 = true := by
      unfold mayFollow
      rw [isTail_toUInt8 (by omega) (by omega), first, second]
      simp only [Bool.true_and, Bool.and_eq_true, Bool.or_eq_true, bne_iff_ne, decide_eq_true_eq]
      omega
    have tail := isTail_toUInt8 (show 0x80 ≤ 0x80 + n / 64 % 64 by omega) (by omega)
    have last := isTail_toUInt8 (show 0x80 ≤ 0x80 + n % 64 by omega) (by omega)
    have value : (((0xf0 + n / 262144 - 0xf0) * 64 + (0x80 + n / 4096 % 64) % 64) * 64 +
        (0x80 + n / 64 % 64) % 64) * 64 + (0x80 + n % 64) % 64 = n := by omega
    rw [if_neg (by omega), if_neg (by omega), if_neg (by omega)]
    simp only [List.cons_append, List.nil_append]
    rw [decodeFrom.eq_def]
    simp only [first, follows, tail, last, tailBits, second, third, fourth, value, whole, if_true]
    rw [if_neg (by omega), if_neg (by omega), if_neg (by omega), if_neg (by omega), if_pos (by omega)]

theorem decodeFrom_encode (position : Nat) (text : List Char) :
    decodeFrom position (encode text) = .ok text := by
  induction text generalizing position with
  | nil => rfl
  | cons c rest ih =>
    obtain ⟨next, goes⟩ := decodeFrom_encodeChar position c (encode rest)
    rw [encode, List.flatMap_cons, ← encode, goes, ih]
    rfl

theorem decode_encode (text : List Char) : decode (encode text) = .ok text := decodeFrom_encode 0 text

theorem exists_next_of_map {c : Char} {part : Except Malformed (List Char)} {position : Nat}
    {octets rest : List UInt8} {text : List Char} (reads : part.map (c :: ·) = .ok text)
    (later : ∀ {text}, part = .ok text →
      ∃ next, decodeFrom position octets = (decodeFrom next rest).map (text ++ ·)) :
    ∃ next, (decodeFrom position octets).map (c :: ·) = (decodeFrom next rest).map (text ++ ·) := by
  cases part with
  | error malformed => cases reads
  | ok text =>
    obtain ⟨next, goes⟩ := later rfl
    cases reads
    refine ⟨next, ?_⟩
    rw [goes]
    cases decodeFrom next rest <;> rfl

/-- Octets that can be decoded are decoded alike in front of others. -/
theorem decodeFrom_append {position : Nat} {octets : List UInt8} {text : List Char}
    (reads : decodeFrom position octets = .ok text) (rest : List UInt8) :
    ∃ next, decodeFrom position (octets ++ rest) = (decodeFrom next rest).map (text ++ ·) := by
  fun_induction decodeFrom position octets generalizing text with
  | case1 position =>
    cases reads
    refine ⟨position, ?_⟩
    rw [List.nil_append]
    cases decodeFrom position rest <;> rfl
  | case2 position a more one ih =>
    rw [List.cons_append, decodeFrom.eq_def]
    dsimp only
    rw [if_pos one]
    exact exists_next_of_map reads ih
  | case5 position a one start two b more tail ih =>
    simp only [List.cons_append]
    rw [decodeFrom.eq_def]
    dsimp only
    rw [if_neg one, if_neg start, if_pos two, if_pos tail]
    exact exists_next_of_map reads ih
  | case9 position a one start two three b follows c more tail ih =>
    simp only [List.cons_append]
    rw [decodeFrom.eq_def]
    dsimp only
    rw [if_neg one, if_neg start, if_neg two, if_pos three, if_pos follows, if_pos tail]
    exact exists_next_of_map reads ih
  | case15 position a one start two three four b follows c tail d more last ih =>
    simp only [List.cons_append]
    rw [decodeFrom.eq_def]
    dsimp only
    rw [if_neg one, if_neg start, if_neg two, if_neg three, if_pos four, if_pos follows, if_pos tail,
      if_pos last]
    exact exists_next_of_map reads ih
  | _ => cases reads

theorem decode_append_encode {octets : List UInt8} {text : List Char} (reads : decode octets = .ok text)
    (more : List Char) : decode (octets ++ encode more) = .ok (text ++ more) := by
  obtain ⟨next, goes⟩ := decodeFrom_append reads (encode more)
  rw [decode, goes, decodeFrom_encode]
  rfl

end JuceWorkbench.Text.Utf8
