import Mathlib.Tactic.Ring
import Baseband.Text.Utf8

/-!
# UTF-8 is read strictly

The machine that reads bytes as text accepts exactly the written forms of texts. A character is
written as a first byte, which holds its highest bits, and groups of six bits after it. What the
machine knows of a character under way is the number that its bits make up so far; so the rest of a
character is read by induction on the number of groups that are missing.
-/

namespace Baseband.Text.Utf8

/-! ## Groups of six bits -/

/-- The bytes of a character after its first: `k` groups of six bits, the highest first. -/
def tail : Nat → Nat → List UInt8
  | 0, _ => []
  | k + 1, n => UInt8.ofNat (0x80 + n / 64 ^ k) :: tail k (n % 64 ^ k)

/-- The lowest `k` groups are told from the bits in front of them. -/
theorem groups_div_mod {k m : Nat} (bits : Nat) (small : m < 64 ^ k) :
    (bits * 64 ^ k + m) / 64 ^ k = bits ∧ (bits * 64 ^ k + m) % 64 ^ k = m := by
  have power : 0 < 64 ^ k := Nat.pow_pos (by decide)
  constructor
  · rw [Nat.mul_comm, Nat.mul_add_div power, Nat.div_eq_of_lt small, Nat.add_zero]
  · rw [Nat.mul_comm, Nat.mul_add_mod, Nat.mod_eq_of_lt small]

/-- The highest of `k + 1` groups has six bits. -/
theorem group_lt (k n : Nat) : n % 64 ^ (k + 1) / 64 ^ k < 64 := by
  rw [Nat.div_lt_iff_lt_mul (Nat.pow_pos (by decide)), ← Nat.pow_succ']
  exact Nat.mod_lt _ (Nat.pow_pos (by decide))

theorem tail_succ (k n : Nat) :
    tail (k + 1) n = UInt8.ofNat (0x80 + n / 64 ^ k) :: tail k (n % 64 ^ k) := rfl

theorem cons_eq_ok {c : Char} {rest : Except Flaw (List Char)} {cs : List Char} :
    (do return c :: (← rest)) = Except.ok cs ↔ ∃ cs', cs = c :: cs' ∧ rest = .ok cs' := by
  cases rest <;> simp [bind, Except.bind, pure, Except.pure, eq_comm]

/-- One byte more of a character under way. -/
theorem decodeFrom_byte {p : Underway} (low : 0x80 ≤ p.low.toNat) (high : p.high.toNat ≤ 0xbf)
    (position : Nat) (b : UInt8) (bs : List UInt8) (cs : List Char) :
    decodeFrom position (some p) (b :: bs) = .ok cs ↔
      ∃ group, b = UInt8.ofNat (0x80 + group) ∧ p.low.toNat ≤ 0x80 + group ∧
        0x80 + group ≤ p.high.toNat ∧
        if p.left ≤ 1 then
          ∃ cs', cs = Char.ofNat (p.bits * 64 + group) :: cs' ∧
            decodeFrom (position + 1) none bs = .ok cs'
        else decodeFrom (position + 1)
          (some ⟨p.start, p.seen + 1, p.left - 1, 0x80, 0xbf, p.bits * 64 + group⟩) bs =
            .ok cs := by
  rw [decodeFrom]
  simp only [UInt8.le_iff_toNat_le]
  constructor
  · intro read
    split at read
    · rename_i within
      have value : 0x80 + (b.toNat - 0x80) = b.toNat := by omega
      refine ⟨b.toNat - 0x80, by rw [value, UInt8.ofNat_toNat], by omega, by omega, ?_⟩
      split at read
      · rename_i last
        rw [if_pos last]
        exact cons_eq_ok.1 read
      · rename_i more
        rwa [if_neg more]
    · cases read
  · rintro ⟨group, rfl, above, below, read⟩
    have value : (UInt8.ofNat (0x80 + group)).toNat = 0x80 + group := by
      rw [UInt8.toNat_ofNat']
      omega
    rw [value, if_pos ⟨above, below⟩, Nat.add_sub_cancel_left]
    split at read
    · rename_i last
      rw [if_pos last]
      exact cons_eq_ok.2 read
    · rename_i more
      rwa [if_neg more]

/-- The rest of a character under way, and what follows it. -/
theorem decodeFrom_underway {k : Nat} {p : Underway} (left : p.left = k + 1)
    (low : 0x80 ≤ p.low.toNat) (high : p.high.toNat ≤ 0xbf) (position : Nat) (bs : List UInt8)
    (cs : List Char) :
    decodeFrom position (some p) bs = .ok cs ↔
      ∃ m rest cs', m < 64 ^ (k + 1) ∧ p.low.toNat ≤ 0x80 + m / 64 ^ k ∧
        0x80 + m / 64 ^ k ≤ p.high.toNat ∧ bs = tail (k + 1) m ++ rest ∧
        cs = Char.ofNat (p.bits * 64 ^ (k + 1) + m) :: cs' ∧
        decodeFrom (position + (k + 1)) none rest = .ok cs' := by
  induction k generalizing p position bs cs with
  | zero =>
    cases bs with
    | nil => simp [decodeFrom, tail]
    | cons b bs =>
      simp only [decodeFrom_byte low high, left, Nat.zero_add, Nat.le_refl, if_true,
        Nat.pow_zero, Nat.div_one, Nat.pow_one, tail, List.singleton_append, List.cons.injEq]
      constructor
      · rintro ⟨group, rfl, above, below, cs', rfl, read⟩
        exact ⟨group, bs, cs', by omega, above, below, ⟨rfl, rfl⟩, rfl, read⟩
      · rintro ⟨group, rest, cs', -, above, below, ⟨rfl, rfl⟩, rfl, read⟩
        exact ⟨group, rfl, above, below, cs', rfl, read⟩
  | succ k ih =>
    cases bs with
    | nil => simp [decodeFrom, tail]
    | cons b bs =>
      have more : ¬p.left ≤ 1 := by omega
      have power : 0 < 64 ^ (k + 1) := Nat.pow_pos (by decide)
      have room : 64 ^ (k + 1 + 1) = 64 * 64 ^ (k + 1) := Nat.pow_succ'
      have value (group m : Nat) : (p.bits * 64 + group) * 64 ^ (k + 1) + m =
          p.bits * 64 ^ (k + 2) + (group * 64 ^ (k + 1) + m) := by ring
      have counted : position + 1 + (k + 1) = position + (k + 2) := by omega
      -- after the first byte any group may follow, so the range is the widest from here on
      have short (group : Nat) :=
        ih (p := ⟨p.start, p.seen + 1, p.left - 1, 0x80, 0xbf, p.bits * 64 + group⟩)
          (by simp only [left]; omega) (Nat.le_refl _) (Nat.le_refl _) (position + 1) bs cs
      simp only [value, counted] at short
      simp only [decodeFrom_byte low high, more, if_false, short, tail_succ (k + 1),
        List.cons_append, List.cons.injEq]
      constructor
      · rintro ⟨group, rfl, above, below, m, rest, cs', small, -, -, rfl, rfl, read⟩
        obtain ⟨first, others⟩ := groups_div_mod group small
        refine ⟨group * 64 ^ (k + 1) + m, rest, cs', ?_, ?_, ?_, ⟨?_, ?_⟩, rfl, read⟩
        · rw [room, ← Nat.div_lt_iff_lt_mul power, first]
          omega
        · rwa [first]
        · rwa [first]
        · rw [first]
        · rw [others]
      · rintro ⟨m, rest, cs', small, above, below, ⟨rfl, rfl⟩, rfl, read⟩
        have bound := group_lt k m
        refine ⟨m / 64 ^ (k + 1), rfl, above, below, m % 64 ^ (k + 1), rest, cs',
          Nat.mod_lt _ power, Nat.le_add_right _ _, ?_, rfl, ?_, read⟩
        · change _ ≤ 0xbf
          omega
        · rw [Nat.div_add_mod']

/-! ## First bytes -/

/-- The first bytes of characters, and what each allows after it. -/
theorem lead?_eq_some {b : UInt8} {l : Lead} :
    lead? b = some l ↔
      b.toNat < 0x80 ∧ l = ⟨0, 0x80, 0xbf, b.toNat⟩ ∨
      (0xc2 ≤ b.toNat ∧ b.toNat < 0xe0) ∧ l = ⟨1, 0x80, 0xbf, b.toNat - 0xc0⟩ ∨
      (0xe0 ≤ b.toNat ∧ b.toNat < 0xf0) ∧ l = ⟨2, if b.toNat = 0xe0 then 0xa0 else 0x80,
        if b.toNat = 0xed then 0x9f else 0xbf, b.toNat - 0xe0⟩ ∨
      (0xf0 ≤ b.toNat ∧ b.toNat < 0xf5) ∧ l = ⟨3, if b.toNat = 0xf0 then 0x90 else 0x80,
        if b.toNat = 0xf4 then 0x8f else 0xbf, b.toNat - 0xf0⟩ := by
  unfold lead?
  grind

/-- The byte after a first byte is always one of those that go on with a character. -/
theorem lead?_bounds {b : UInt8} {l : Lead} (first : lead? b = some l) :
    0x80 ≤ l.low.toNat ∧ l.high.toNat ≤ 0xbf := by
  rcases lead?_eq_some.1 first with ⟨-, rfl⟩ | ⟨-, rfl⟩ | ⟨-, rfl⟩ | ⟨-, rfl⟩
  · exact ⟨Nat.le_refl _, Nat.le_refl _⟩
  · exact ⟨Nat.le_refl _, Nat.le_refl _⟩
  all_goals
    simp only [apply_ite UInt8.toNat, UInt8.reduceToNat]
    constructor <;> split <;> decide

structure Lead.Allows (l : Lead) (m : Nat) : Prop where
  small : m < 64 ^ l.following
  range : ∀ k, l.following = k + 1 →
    l.low.toNat ≤ 0x80 + m / 64 ^ k ∧ 0x80 + m / 64 ^ k ≤ l.high.toNat

/-! ## Written characters -/

theorem toNat_ofNat_of_valid {n : Nat} (valid : n.isValidChar) : (Char.ofNat n).val.toNat = n := by
  rw [Char.ofNat, dif_pos valid]
  rfl

/-- The written form of a character: what is left for its first byte, and the groups after it. -/
theorem utf8EncodeChar_eq {c : Char} {n : Nat} (value : c.val.toNat = n) :
    String.utf8EncodeChar c =
      if n < 0x80 then UInt8.ofNat n :: tail 0 0
      else if n < 0x800 then UInt8.ofNat (0xc0 + n / 64 ^ 1) :: tail 1 (n % 64 ^ 1)
      else if n < 0x10000 then UInt8.ofNat (0xe0 + n / 64 ^ 2) :: tail 2 (n % 64 ^ 2)
      else UInt8.ofNat (0xf0 + n / 64 ^ 3) :: tail 3 (n % 64 ^ 3) := by
  have valid : n < 0xd800 ∨ 0xdfff < n ∧ n < 0x110000 := value ▸ c.valid
  simp only [String.utf8EncodeChar, value, tail, Nat.reducePow, Nat.le_iff_lt_add_one,
    Nat.reduceAdd]
  split
  · rfl
  · split
    · simp only [List.cons.injEq, and_true]
      refine ⟨congrArg _ ?_, congrArg _ ?_⟩ <;> omega
    · split
      · simp only [List.cons.injEq, and_true]
        refine ⟨congrArg _ ?_, congrArg _ ?_, congrArg _ ?_⟩ <;> omega
      · simp only [List.cons.injEq, and_true]
        refine ⟨congrArg _ ?_, congrArg _ ?_, congrArg _ ?_, congrArg _ ?_⟩ <;> omega

/-- The highest bits of a number are told from the groups below them. -/
theorem groups_eq {b : UInt8} {base bits k m : Nat} (value : b.toNat = base + bits)
    (small : m < 64 ^ k) :
    UInt8.ofNat (base + (bits * 64 ^ k + m) / 64 ^ k) :: tail k ((bits * 64 ^ k + m) % 64 ^ k) =
      b :: tail k m := by
  obtain ⟨highest, lowest⟩ := groups_div_mod bits small
  rw [highest, lowest, ← value, UInt8.ofNat_toNat]

/-- What a first byte allows is the written form of the character that the bits make up. -/
theorem utf8EncodeChar_of_lead {b : UInt8} {l : Lead} (first : lead? b = some l) {m : Nat}
    (allows : l.Allows m) :
    String.utf8EncodeChar (Char.ofNat (l.bits * 64 ^ l.following + m)) =
      b :: tail l.following m := by
  obtain ⟨small, range⟩ := allows
  rcases lead?_eq_some.1 first with
    ⟨below, rfl⟩ | ⟨⟨above, below⟩, rfl⟩ | ⟨⟨above, below⟩, rfl⟩ | ⟨⟨above, below⟩, rfl⟩
  · obtain rfl : m = 0 := Nat.lt_one_iff.1 small
    have value := toNat_ofNat_of_valid (n := b.toNat * 64 ^ 0 + 0) (.inl (by omega))
    rw [utf8EncodeChar_eq value, if_pos (by omega)]
    simp
  · have parts : b.toNat = 0xc0 + (b.toNat - 0xc0) := by omega
    have written := groups_eq parts small
    simp only at small
    have value := toNat_ofNat_of_valid (n := (b.toNat - 0xc0) * 64 ^ 1 + m) (.inl (by omega))
    rw [utf8EncodeChar_eq value, if_neg (by omega), if_pos (by omega), written]
  · have parts : b.toNat = 0xe0 + (b.toNat - 0xe0) := by omega
    have written := groups_eq parts small
    obtain ⟨least, most⟩ := range 1 rfl
    simp only [apply_ite UInt8.toNat, UInt8.reduceToNat] at small least most
    have least : 0x800 ≤ (b.toNat - 0xe0) * 64 ^ 2 + m := by split at least <;> omega
    have valid : Nat.isValidChar ((b.toNat - 0xe0) * 64 ^ 2 + m) := by
      unfold Nat.isValidChar
      split at most <;> omega
    rw [utf8EncodeChar_eq (toNat_ofNat_of_valid valid), if_neg (by omega), if_neg (by omega),
      if_pos (by omega), written]
  · have parts : b.toNat = 0xf0 + (b.toNat - 0xf0) := by omega
    have written := groups_eq parts small
    obtain ⟨least, most⟩ := range 2 rfl
    simp only [apply_ite UInt8.toNat, UInt8.reduceToNat] at small least most
    have least : 0x10000 ≤ (b.toNat - 0xf0) * 64 ^ 3 + m := by split at least <;> omega
    have most : (b.toNat - 0xf0) * 64 ^ 3 + m < 0x110000 := by split at most <;> omega
    rw [utf8EncodeChar_eq (toNat_ofNat_of_valid (.inr ⟨by omega, most⟩)), if_neg (by omega),
      if_neg (by omega), if_neg (by omega), written]

/-- Every character has a first byte, with groups after it that this one allows. -/
theorem exists_lead (c : Char) :
    ∃ b l m, lead? b = some l ∧ l.Allows m ∧ c = Char.ofNat (l.bits * 64 ^ l.following + m) := by
  obtain ⟨n, value⟩ : ∃ n, c.val.toNat = n := ⟨_, rfl⟩
  have valid : n < 0xd800 ∨ 0xdfff < n ∧ n < 0x110000 := value ▸ c.valid
  have same {m : Nat} (eq : n = m) : c = Char.ofNat m := by
    rw [← eq, ← value]
    exact (Char.ofNat_toNat c).symm
  have byte {k : Nat} (small : k < 256) : ∃ b : UInt8, b.toNat = k :=
    ⟨.ofNat k, UInt8.toNat_ofNat_of_lt' small⟩
  by_cases one : n < 0x80
  · obtain ⟨b, first⟩ := byte (k := n) (by omega)
    refine ⟨b, _, 0, lead?_eq_some.2 (.inl ⟨by omega, rfl⟩), ⟨Nat.one_pos, nofun⟩, same ?_⟩
    simp [first]
  by_cases two : n < 0x800
  · obtain ⟨b, first⟩ := byte (k := 0xc0 + n / 64) (by omega)
    refine ⟨b, _, n % 64, lead?_eq_some.2 (.inr (.inl ⟨by omega, rfl⟩)),
      ⟨Nat.mod_lt _ (by decide), ?_⟩, same ?_⟩
    · rintro k ⟨⟩
      exact ⟨Nat.le_add_right _ _, by change _ ≤ 0xbf; omega⟩
    · simp only [first]
      omega
  by_cases three : n < 0x10000
  · obtain ⟨b, first⟩ := byte (k := 0xe0 + n / 64 ^ 2) (by omega)
    refine ⟨b, _, n % 64 ^ 2, lead?_eq_some.2 (.inr (.inr (.inl ⟨by omega, rfl⟩))),
      ⟨Nat.mod_lt _ (by decide), ?_⟩, same ?_⟩
    · rintro k ⟨⟩
      simp only [apply_ite UInt8.toNat, UInt8.reduceToNat]
      constructor
      · split <;> omega
      · split <;> omega
    · simp only [first]
      omega
  · obtain ⟨b, first⟩ := byte (k := 0xf0 + n / 64 ^ 3) (by omega)
    refine ⟨b, _, n % 64 ^ 3, lead?_eq_some.2 (.inr (.inr (.inr ⟨by omega, rfl⟩))),
      ⟨Nat.mod_lt _ (by decide), ?_⟩, same ?_⟩
    · rintro k ⟨⟩
      simp only [apply_ite UInt8.toNat, UInt8.reduceToNat]
      constructor
      · split <;> omega
      · split <;> omega
    · simp only [first]
      omega

/-! ## Texts -/

/-- The character that is read first, and what follows it. -/
theorem decodeFrom_first (position : Nat) (b : UInt8) (bs : List UInt8) (cs : List Char) :
    decodeFrom position none (b :: bs) = .ok cs ↔
      ∃ l m rest cs', lead? b = some l ∧ l.Allows m ∧ bs = tail l.following m ++ rest ∧
        cs = Char.ofNat (l.bits * 64 ^ l.following + m) :: cs' ∧
        decodeFrom (position + 1 + l.following) none rest = .ok cs' := by
  rw [decodeFrom]
  cases first : lead? b with
  | none => simp
  | some l =>
    obtain ⟨following, low, high, bits⟩ := l
    cases following with
    | zero =>
      simp only [cons_eq_ok]
      constructor
      · rintro ⟨cs', rfl, read⟩
        exact ⟨_, 0, bs, cs', rfl, ⟨Nat.one_pos, nofun⟩, rfl, by simp, read⟩
      · rintro ⟨l, m, rest, cs', same, allows, rfl, rfl, read⟩
        cases same
        obtain rfl : m = 0 := Nat.lt_one_iff.1 allows.small
        exact ⟨cs', by simp, read⟩
    | succ k =>
      obtain ⟨least, most⟩ := lead?_bounds first
      simp only [decodeFrom_underway (p := ⟨position, 1, k + 1, low, high, bits⟩) rfl least most]
      constructor
      · rintro ⟨m, rest, cs', small, above, below, rfl, rfl, read⟩
        refine ⟨_, m, rest, cs', rfl, ⟨small, ?_⟩, rfl, rfl, read⟩
        rintro _ ⟨⟩
        exact ⟨above, below⟩
      · rintro ⟨l, m, rest, cs', same, allows, rfl, rfl, read⟩
        cases same
        obtain ⟨above, below⟩ := allows.range k rfl
        exact ⟨m, rest, cs', allows.small, above, below, rfl, rfl, read⟩

/-- Bytes are decoded exactly if they encode the characters. -/
theorem decodeFrom_eq_ok {position : Nat} {bs : List UInt8} {cs : List Char} :
    decodeFrom position none bs = .ok cs ↔ bs = encode cs := by
  induction cs generalizing position bs with
  | nil =>
    cases bs with
    | nil => simp [decodeFrom, encode]
    | cons b bs => simp [decodeFrom_first, encode]
  | cons c cs ih =>
    have written : encode (c :: cs) = String.utf8EncodeChar c ++ encode cs := List.flatMap_cons
    rw [written]
    cases bs with
    | nil =>
      obtain ⟨b, l, m, first, allows, rfl⟩ := exists_lead c
      simp [decodeFrom, utf8EncodeChar_of_lead first allows]
    | cons b bs =>
      rw [decodeFrom_first]
      constructor
      · rintro ⟨l, m, rest, cs', first, allows, rfl, same, read⟩
        obtain ⟨rfl, rfl⟩ := List.cons.inj same
        rw [utf8EncodeChar_of_lead first allows, ih.1 read, List.cons_append]
      · intro same
        obtain ⟨b', l, m, first, allows, rfl⟩ := exists_lead c
        rw [utf8EncodeChar_of_lead first allows, List.cons_append] at same
        obtain ⟨rfl, rfl⟩ := List.cons.inj same
        exact ⟨l, m, _, cs, first, allows, rfl, rfl, ih.2 rfl⟩

/-- Bytes are read as a text exactly if they are its written form. -/
theorem decode_eq_ok {bs : List UInt8} {cs : List Char} : decode bs = .ok cs ↔ bs = encode cs :=
  decodeFrom_eq_ok

end Baseband.Text.Utf8
