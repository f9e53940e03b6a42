import VideoAnalytics.Dft
import VideoAnalytics.Library.MixedRadix

/-! The first n entries of itab for an even first factor n: a permutation of the
multiples of a below n times a, by the reversed bits of the index. -/
namespace VideoAnalytics.Dft
open Loop Memory MixedRadix

def reversedByte (b : Nat) : Nat := bitrevTab.getD b 0

/-- The bytes of a number with their bits reversed, the lowest byte first. -/
def reversedBytes : Nat → Nat → Nat
  | 0, _ => 0
  | count + 1, i => reversedByte (i % 256) * 256 ^ count + reversedBytes count (i / 256)

/-- The place of a remainder by four among the quarters. -/
def quarter (r : Nat) : Nat := [0,2,1,3].getD r 0

def reversedIndex (n i : Nat) : Nat :=
  if n ≤ 256 then bitrevTab.getD i 0 >>> (10 - bits n) else bitRev i (34 - bits n)

/-- The value of an entry, as a multiple of a. -/
def headValue (n i : Nat) : Nat :=
  if n ≤ 2 then i else quarter (i % 4) * (n / 4) + reversedIndex n (i / 4)

private theorem byte_permutes : Permutes 256 reversedByte := by
  have twice : ∀ b, b < 256 → reversedByte b < 256 ∧ reversedByte (reversedByte b) = b := by
    decide +kernel
  constructor
  · intro b low
    exact (twice b low).1
  · intro b low c below same
    rw [← (twice b low).2,← (twice c below).2,same]

private theorem quarter_permutes : Permutes 4 quarter := by
  constructor <;> decide

private theorem byte_divides {u b : Nat} (width : u ≤ 8) (low : b < 2 ^ u) : 2 ^
    (8 - u) ∣ reversedByte b := by
  have all : ∀ u, u < 9 → ∀ b, b < 2 ^ u → 2 ^ (8 - u) ∣ reversedByte b := by
    decide +kernel
  exact all u (by omega) b low

private theorem bytes_permutes (count : Nat) : Permutes (256 ^ count) (reversedBytes count) := by
  induction count with
  | zero => exact Permutes.one
  | succ count ih =>
    rw [Nat.pow_succ,Nat.mul_comm]
    exact byte_permutes.reversed ih

private theorem bytes_zero (count : Nat) : reversedBytes count 0 = 0 := by
  induction count with
  | zero => rfl
  | succ count ih =>
    have first : reversedByte 0 = 0 := rfl
    unfold reversedBytes
    rw [Nat.zero_mod,Nat.zero_div,first,Nat.zero_mul,ih]

/-- A number of so many bits is reversed into a multiple. -/
theorem bytes_divides {count u i : Nat} (width : u ≤ 8 * count) (low : i < 2 ^ u) :
    2 ^ (8 * count - u) ∣ reversedBytes count i := by
  induction count generalizing u i with
  | zero => exact dvd_zero _
  | succ count ih =>
    have bytes : (256 : Nat) ^ count = 2 ^ (8 * count) := by
      rw [Nat.pow_mul]
    unfold reversedBytes
    rw [bytes]
    by_cases single : u ≤ 8
    · -- one byte: the others are zero
      have small : i < 256 := low.trans_le (Nat.pow_le_pow_right Nat.two_pos single)
      have split : 8 * (count + 1) - u = 8 - u + 8 * count := by omega
      rw [Nat.mod_eq_of_lt small,Nat.div_eq_of_lt small,bytes_zero,Nat.add_zero,split,Nat.pow_add]
      exact Nat.mul_dvd_mul_right (byte_divides single low) _
    · have split : 8 * (count + 1) - u = 8 * count - (u - 8) := by omega
      have upper : i / 256 < 2 ^ (u - 8) := by
        apply Nat.div_lt_of_lt_mul
        have whole : 256 * 2 ^ (u - 8) = 2 ^ u := by
          rw [show (256 : Nat) = 2 ^ 8 from rfl,← Nat.pow_add]
          congr 1
          omega
        omega
      rw [split]
      apply Nat.dvd_add
      · exact Nat.dvd_mul_left_of_dvd (Nat.pow_dvd_pow 2 (by omega)) _
      · exact ih (by omega) upper

/-- The reversed bits of the numbers of so many bits. -/
theorem shifted_permutes {count u : Nat} (width : u ≤ 8 * count) :
    Permutes (2 ^ u) fun i => reversedBytes count i >>> (8 * count - u) := by
  have whole : (256 : Nat) ^ count = 2 ^ u * 2 ^ (8 * count - u) := by
    rw [← Nat.pow_add,Nat.add_sub_cancel' width,Nat.pow_mul]
  have divided := (whole ▸ bytes_permutes count).divided (Nat.two_pow_pos _)
    fun i low => bytes_divides width low
  exact divided.congr fun i _ => Nat.shiftRight_eq_div_pow _ _

private theorem bitRev_eq {i : Nat} (shift : Nat) (low : i < 2 ^ 32) :
    bitRev i shift = reversedBytes 4 i >>> shift := by
  have third : i / 256 / 256 % 256 = i / 2 ^ 16 % 256 := by omega
  have last : i / 256 / 256 / 256 % 256 = i / 2 ^ 24 := by omega
  have word : reversedBytes 4 i = reversedByte (i % 256) <<< 24 +
      reversedByte (i / 2 ^ 8 % 256) <<< 16 + reversedByte (i / 2 ^ 16 % 256) <<< 8 +
      reversedByte (i / 2 ^ 24) := by
    simp only [reversedBytes,third,last,Nat.shiftLeft_eq,Nat.add_assoc,Nat.add_zero]
    norm_num
  rw [word]
  rfl

private theorem bits_pow (m : Nat) : bits (2 ^ m) = m := by
  unfold bits
  apply scan_eq
  · intro i _ low
    exact decide_eq_false (Nat.not_le.mpr (Nat.pow_lt_pow_right Nat.one_lt_two low))
  · exact Nat.zero_le m
  · rw [Nat.zero_add]
    exact Nat.lt_two_pow_self.le
  · exact .inr (decide_eq_true (Nat.le_refl _))

private theorem reversedIndex_permutes {u : Nat} (width : u ≤ 32) :
    Permutes (2 ^ u) (reversedIndex (2 ^ (u + 2))) := by
  by_cases small : u ≤ 6
  · have table : 2 ^ (u + 2) ≤ 256 := Nat.pow_le_pow_right Nat.two_pos (by omega : u + 2 ≤ 8)
    apply (shifted_permutes (by omega : u ≤ 8 * 1)).congr
    intro i low
    have byte : i < 256 := low.trans_le (Nat.pow_le_pow_right Nat.two_pos (by omega : u ≤ 8))
    unfold reversedIndex
    rw [if_pos table,bits_pow]
    simp only [reversedBytes,Nat.mod_eq_of_lt byte,Nat.pow_zero,Nat.mul_one,Nat.add_zero]
    congr 1
    omega
  · have table : ¬ 2 ^ (u + 2) ≤ 256 := by
      have larger : 2 ^ 9 ≤ 2 ^ (u + 2) := Nat.pow_le_pow_right Nat.two_pos (by omega)
      omega
    apply (shifted_permutes (by omega : u ≤ 8 * 4)).congr
    intro i low
    have word : i < 2 ^ 32 := low.trans_le (Nat.pow_le_pow_right Nat.two_pos width)
    unfold reversedIndex
    rw [if_neg table,bits_pow,bitRev_eq _ word]
    congr 1
    omega

private theorem four_larger (u : Nat) : ¬ 4 * 2 ^ u ≤ 2 := by
  have positive := Nat.two_pow_pos u
  omega

theorem headValue_permutes {e : Nat} (width : e < 34) :
    Permutes (2 ^ (e + 1)) (headValue (2 ^ (e + 1))) := by
  cases e with
  | zero => exact (Permutes.id 2).congr fun _ _ => rfl
  | succ u =>
    have split : 2 ^ (u + 1 + 1) = 4 * 2 ^ u := by ring
    have quarters := quarter_permutes.reversed (reversedIndex_permutes (by omega : u ≤ 32))
    rw [← split] at quarters
    apply quarters.congr
    intro i _
    unfold headValue
    rw [split,if_neg (four_larger u),Nat.mul_div_cancel_left _ (by omega : 0 < 4)]

/-- Passes of four entries are one pass over the entries. -/
theorem range_fours {β : Type} (count : Nat) (value : Nat → β) :
    (List.range count).flatMap (fun i => [value (4 * i),value (4 * i + 1),value (4 * i + 2),
      value (4 * i + 3)]) = (List.range (4 * count)).map value := by
  induction count with
  | zero => rfl
  | succ count ih =>
    rw [List.range_succ,List.flatMap_append,List.flatMap_singleton,ih]
    have more : 4 * (count + 1) = 4 * count + 1 + 1 + 1 + 1 := by omega
    rw [more]
    simp only [List.range_succ,List.map_append,List.map_cons,List.map_nil,List.append_assoc,
      List.cons_append,List.nil_append]

/-- One of the four entries of a pass. -/
theorem headValue_four (u i a : Nat) {r : Nat} (low : r < 4) :
    headValue (4 * 2 ^ u) (4 * i + r) * a =
      reversedIndex (4 * 2 ^ u) i * a + quarter r * (2 ^ u * a) := by
  have quarters : 4 * 2 ^ u / 4 = 2 ^ u := Nat.mul_div_cancel_left _ (by omega)
  unfold headValue
  rw [if_neg (four_larger u),quarters,Nat.mul_comm 4 i,cell_row i low,cell_col i low]
  ring

private theorem head_pieces (u i a j : Nat) (reversed : j = reversedIndex (4 * 2 ^ u) i * a) :
    [entry (4 * i) (j : Int),entry (4 * i + 1) ((j : Int) + (2 * (2 ^ u * a) : Nat)),
      entry (4 * i + 2) ((j : Int) + (2 ^ u * a : Nat)),
      entry (4 * i + 3) ((j : Int) + (2 * (2 ^ u * a) : Nat) + (2 ^ u * a : Nat))] =
    [entry (4 * i) ((headValue (4 * 2 ^ u) (4 * i) * a : Nat) : Int),
      entry (4 * i + 1) ((headValue (4 * 2 ^ u) (4 * i + 1) * a : Nat) : Int),
      entry (4 * i + 2) ((headValue (4 * 2 ^ u) (4 * i + 2) * a : Nat) : Int),
      entry (4 * i + 3) ((headValue (4 * 2 ^ u) (4 * i + 3) * a : Nat) : Int)] := by
  subst reversed
  have first := headValue_four u i a (by omega : 0 < 4)
  have second := headValue_four u i a (by omega : 1 < 4)
  have third := headValue_four u i a (by omega : 2 < 4)
  have fourth := headValue_four u i a (by omega : 3 < 4)
  simp only [quarter,List.getD_cons_zero,List.getD_cons_succ,Nat.add_zero,Nat.zero_mul,
    Nat.one_mul] at first second third fourth
  rw [first,second,third,fourth,Nat.succ_mul 2,← Nat.add_assoc]
  push_cast
  rfl

theorem evenHead_eq (e a : Nat) : evenHead (2 ^ (e + 1)) a =
    (List.range (2 ^ (e + 1))).map fun i => entry i ((headValue (2 ^ (e + 1)) i * a : Nat) : Int) := by
  cases e with
  | zero =>
    have half : (2 * a) >>> 1 = a := by
      rw [Nat.shiftRight_one]
      omega
    simp [evenHead,headValue,List.range_succ,half]
  | succ u =>
    have split : 2 ^ (u + 1 + 1) = 4 * 2 ^ u := by ring
    have half : (4 * 2 ^ u * a) >>> 1 = 2 * (2 ^ u * a) := by
      rw [Nat.shiftRight_one,Nat.mul_assoc]
      omega
    have fourth : (2 * (2 ^ u * a)) >>> 1 = 2 ^ u * a := by
      rw [Nat.shiftRight_one]
      omega
    have quarters : 4 * 2 ^ u / 4 = 2 ^ u := Nat.mul_div_cancel_left _ (by omega)
    rw [split,← range_fours]
    unfold evenHead
    dsimp only
    rw [if_neg (four_larger u),half,fourth,quarters]
    split
    · rename_i table
      congr 1
      funext i
      apply head_pieces
      unfold reversedIndex
      rw [if_pos table]
    · rename_i table
      congr 1
      funext i
      apply head_pieces
      unfold reversedIndex
      rw [if_neg table]

end VideoAnalytics.Dft
