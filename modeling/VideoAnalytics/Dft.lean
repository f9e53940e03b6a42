import VideoAnalytics.Library.Loop
import VideoAnalytics.FloatType
import Mathlib.Logic.Function.Basic

/-! DFTFactorize and DFTInit of KCFTracker, as both are called: inv_itab is 0. A
table that they fill is known by the writes to it, in order. -/
namespace VideoAnalytics.Dft
open Loop

def bitrevTab : List Nat :=
  [0x00,0x80,0x40,0xc0,0x20,0xa0,0x60,0xe0,0x10,0x90,0x50,0xd0,0x30,0xb0,0x70,0xf0,
   0x08,0x88,0x48,0xc8,0x28,0xa8,0x68,0xe8,0x18,0x98,0x58,0xd8,0x38,0xb8,0x78,0xf8,
   0x04,0x84,0x44,0xc4,0x24,0xa4,0x64,0xe4,0x14,0x94,0x54,0xd4,0x34,0xb4,0x74,0xf4,
   0x0c,0x8c,0x4c,0xcc,0x2c,0xac,0x6c,0xec,0x1c,0x9c,0x5c,0xdc,0x3c,0xbc,0x7c,0xfc,
   0x02,0x82,0x42,0xc2,0x22,0xa2,0x62,0xe2,0x12,0x92,0x52,0xd2,0x32,0xb2,0x72,0xf2,
   0x0a,0x8a,0x4a,0xca,0x2a,0xaa,0x6a,0xea,0x1a,0x9a,0x5a,0xda,0x3a,0xba,0x7a,0xfa,
   0x06,0x86,0x46,0xc6,0x26,0xa6,0x66,0xe6,0x16,0x96,0x56,0xd6,0x36,0xb6,0x76,0xf6,
   0x0e,0x8e,0x4e,0xce,0x2e,0xae,0x6e,0xee,0x1e,0x9e,0x5e,0xde,0x3e,0xbe,0x7e,0xfe,
   0x01,0x81,0x41,0xc1,0x21,0xa1,0x61,0xe1,0x11,0x91,0x51,0xd1,0x31,0xb1,0x71,0xf1,
   0x09,0x89,0x49,0xc9,0x29,0xa9,0x69,0xe9,0x19,0x99,0x59,0xd9,0x39,0xb9,0x79,0xf9,
   0x05,0x85,0x45,0xc5,0x25,0xa5,0x65,0xe5,0x15,0x95,0x55,0xd5,0x35,0xb5,0x75,0xf5,
   0x0d,0x8d,0x4d,0xcd,0x2d,0xad,0x6d,0xed,0x1d,0x9d,0x5d,0xdd,0x3d,0xbd,0x7d,0xfd,
   0x03,0x83,0x43,0xc3,0x23,0xa3,0x63,0xe3,0x13,0x93,0x53,0xd3,0x33,0xb3,0x73,0xf3,
   0x0b,0x8b,0x4b,0xcb,0x2b,0xab,0x6b,0xeb,0x1b,0x9b,0x5b,0xdb,0x3b,0xbb,0x7b,0xfb,
   0x07,0x87,0x47,0xc7,0x27,0xa7,0x67,0xe7,0x17,0x97,0x57,0xd7,0x37,0xb7,0x77,0xf7,
   0x0f,0x8f,0x4f,0xcf,0x2f,0xaf,0x6f,0xef,0x1f,0x9f,0x5f,0xdf,0x3f,0xbf,0x7f,0xff]

/-- The loop that divides by 3, 5, …: the factors found and the rest. -/
def oddFactors : Nat → Nat → Nat → List Nat → List Nat × Nat
  | 0, _, n, factors => (factors,n)
  | fuel + 1, f, n, factors =>
    if n > 1 then
      let d := n / f
      if d * f = n then oddFactors fuel f d (factors ++ [f])
      else if (f + 2) * (f + 2) > n then (factors,n)
      else oddFactors fuel (f + 2) n factors
    else (factors,n)

def swap (factors : List Nat) (i k : Nat) : List Nat :=
  (factors.set i (factors.getD k 0)).set k (factors.getD i 0)

def dftFactorize (n : Nat) : List Nat :=
  if n ≤ 5 then [n]
  else
    let f := (((n - 1) ^^^ n) + 1) >>> 1
    let (factors,n) := if f > 1 then ([f],if f = n then 1 else n / f) else ([],n)
    let (factors,n) := oddFactors (2 * n) 3 n factors
    let factors := if n > 1 then factors ++ [n] else factors
    let nf := factors.length
    let f := if factors.getD 0 0 % 2 = 0 then 1 else 0
    forLoop ((nf + f) / 2 - f)
      (fun pass factors => swap factors (f + pass) (nf - (f + pass) - 1 + f)) factors

def entry {α : Type} (index : Nat) (value : α) : Int × α := (index,value)

/-- A table after writes to it. -/
def store {α : Type} (table : Int → α) (writes : List (Int × α)) : Int → α :=
  writes.foldl (fun table write => Function.update table write.1 write.2) table

def lookup (writes : List (Int × Int)) (index : Int) : Int :=
  writes.foldl (fun value write => if write.1 = index then write.2 else value) 0

def radixOf (factors : List Nat) : Nat → Nat :=
  let nf := factors.length
  forLoop nf (fun i radix =>
    Function.update radix (nf - i - 1) (radix (nf - i) * factors.getD (nf - i - 1) 0))
    (Function.update (fun _ => 0) nf 1)

/-- Counts one up in the mixed radix of the factors, from digit k on. -/
def carry (factors : List Nat) (radix : Nat → Nat) :
    Nat → Nat → (Nat → Nat) → Int → (Nat → Nat) × Int
  | 0, _, digits, j => (digits,j)
  | fuel + 1, k, digits, j =>
    let digits := Function.update digits k (digits k + 1)
    if digits k ≥ factors.getD k 0 then
      carry factors radix fuel (k + 1) (Function.update digits k 0) (j + radix (k + 2) - radix k)
    else (digits,j)

/-- The first m with 2 ^ m at least n. -/
def bits (n : Nat) : Nat := scan (fun m => decide (n ≤ 2 ^ m)) n 0

def bitRev (i shift : Nat) : Nat :=
  ((bitrevTab.getD (i % 256) 0 <<< 24) + (bitrevTab.getD (i / 2 ^ 8 % 256) 0 <<< 16) +
    (bitrevTab.getD (i / 2 ^ 16 % 256) 0 <<< 8) + bitrevTab.getD (i / 2 ^ 24) 0) >>> shift

/-- itab[0] to itab[n - 1] for an even first factor n. -/
def evenHead (n a : Nat) : List (Int × Int) :=
  let na2 := (n * a) >>> 1
  let na4 := na2 >>> 1
  let m := bits n
  let four (i j : Nat) : List (Int × Int) :=
    [entry i j,entry (i + 1) (j + na2),entry (i + 2) (j + na4),entry (i + 3) (j + na2 + na4)]
  if n ≤ 2 then [entry 0 0,entry 1 na2]
  else if n ≤ 256 then
    (List.range (n / 4)).flatMap fun i => four (4 * i) ((bitrevTab.getD i 0 >>> (10 - m)) * a)
  else (List.range (n / 4)).flatMap fun i => four (4 * i) (bitRev i (34 - m) * a)

/-- The blocks of n entries after the first. -/
def evenBlocks (n n0 : Nat) (factors : List Nat) (radix : Nat → Nat) :
    Nat → Nat → Int → (Nat → Nat) → List (Int × Int) → List (Int × Int)
  | 0, _, _, _, writes => writes
  | fuel + 1, i, j, digits, writes =>
    if i < n0 then
      let writes := forLoop n (fun k writes => writes ++ [entry (i + k) (lookup writes k + j)]) writes
      let i := i + n
      if i ≥ n0 then writes
      else
        let (digits,j) := carry factors radix 34 1 digits (j + radix 2)
        evenBlocks n n0 factors radix fuel i j digits writes
    else writes

def oddEntries (n0 : Nat) (factors : List Nat) (radix : Nat → Nat) :
    Nat → Nat → Int → (Nat → Nat) → List (Int × Int) → List (Int × Int)
  | 0, _, _, _, writes => writes
  | fuel + 1, i, j, digits, writes =>
    let writes := writes ++ [entry i j]
    let i := i + 1
    if i ≥ n0 then writes
    else
      let (digits,j) := carry factors radix 34 0 digits (j + radix 1)
      oddEntries n0 factors radix fuel i j digits writes

def itabWrites (n0 : Nat) (factors : List Nat) : List (Int × Int) :=
  if n0 ≤ 5 then
    [entry 0 0,((n0 : Int) - 1,(n0 : Int) - 1)] ++
      if n0 = 4 then [entry 1 2,entry 2 1]
      else (List.range (n0 - 2)).map fun i => entry (i + 1) ((i + 1 : Nat) : Int)
  else
    let n := factors.getD 0 0
    let radix := radixOf factors
    if n % 2 = 0 then
      let head := evenHead n (radix 1)
      if factors.length ≥ 2 then
        evenBlocks n n0 factors radix n0 n (radix 2) (Function.update (fun _ => 0) 1 1) head
      else head
    else oddEntries n0 factors radix n0 0 0 (fun _ => 0) []

/-- The functions and constants of double, and its conversion to float. -/
structure Math (D F : Type) where
  dftTab : Nat → D × D
  pi : D
  sin : D → D
  cos : D → D
  sqrtf : D → D
  toFloat : D → F

instance floatType_double : FloatType Float where
  intCast := Float.ofInt
  decidableLT := inferInstance
  decidableLE := inferInstance

def doubleMath : Math Float Float32 where
  dftTab m := (Float.cos (6.283185307179586 / 2 ^ m.toFloat),Float.sin (6.283185307179586 / 2 ^ m.toFloat))
  pi := 3.141592653589793
  sin := Float.sin
  cos := Float.cos
  sqrtf := Float.sqrt
  toFloat := Float.toFloat32

section Wave

variable {D F : Type} [FloatType D] (math : Math D F)

def numeral (value : Int) : D := value

def firstRoot (n0 m : Nat) : D × D :=
  if n0 &&& (n0 - 1) = 0 then ((math.dftTab m).1,numeral (-1) * (math.dftTab m).2)
  else
    let t := numeral (-1) * math.pi * numeral 2 / numeral n0
    let w1 := math.sin t
    (math.sqrtf (numeral 1 - w1 * w1),w1)

def waveWrites (n0 : Nat) (factors : List Nat) : List (Int × F) :=
  let one := math.toFloat (numeral 1)
  let zero := math.toFloat (numeral 0)
  let start := [entry 0 one,entry 1 zero]
  if n0 ≤ 5 ∧ n0 ≠ 4 then if n0 = 5 then start else []
  else
    let m := if n0 = 4 then 2 else if factors.getD 0 0 % 2 = 0 then bits (factors.getD 0 0) else 0
    let w1 := firstRoot math n0 m
    let n := (n0 + 1) / 2
    let middle :=
      if n0 % 2 = 0 then [entry (2 * n) (math.toFloat (numeral (-1))),entry (2 * n + 1) zero] else []
    (forLoop (n - 1) (fun pass (state : (D × D) × List (Int × F)) =>
      let (w,writes) := state
      let i := pass + 1
      let turned := (w.1 * w1.1 - w.2 * w1.2,w.1 * w1.2 + w.2 * w1.1)
      (turned,writes ++ [entry (2 * i) (math.toFloat w.1),entry (2 * i + 1) (math.toFloat w.2),
        entry (2 * (n0 - i)) (math.toFloat w.1),
        entry (2 * (n0 - i) + 1) (math.toFloat (numeral (-1) * w.2))]))
      (w1,start ++ middle)).2

end Wave

theorem oddFactors_enough (fuel extra f n : Nat) (factors : List Nat) (least : 3 ≤ f)
    (enough : 2 * n ≤ fuel + f) :
    oddFactors (fuel + extra) f n factors = oddFactors fuel f n factors := by
  induction fuel generalizing f n factors with
  | zero =>
    cases extra with
    | zero => rfl
    | succ extra =>
      have below : n / f = 0 := Nat.div_eq_of_lt (by omega)
      have square : (f + 2) * (f + 2) > n := calc
        n < f + 2 := by omega
        _ ≤ (f + 2) * (f + 2) := Nat.le_mul_self _
      simp only [oddFactors,below,Nat.zero_mul,if_pos square]
      split
      · rw [if_neg (by omega)]
      · rfl
  | succ fuel ih =>
    rw [Nat.succ_add]
    simp only [oddFactors]
    split
    · have smaller : n / f < n := Nat.div_lt_self (by omega) (by omega)
      rw [ih f (n / f) (factors ++ [f]) least (by omega),ih (f + 2) n factors (by omega) (by omega)]
    · rfl

/-- A length that fits the arrays fills itab from its first entry to the last,
and writes nothing else. -/
theorem itabWrites_range (n0 : Nat) (positive : 1 ≤ n0) (fits : n0 ≤ 32) :
    (∀ write ∈ itabWrites n0 (dftFactorize n0), 0 ≤ write.1 ∧ write.1 < n0) ∧
      ∀ i, i < n0 → ∃ write ∈ itabWrites n0 (dftFactorize n0), write.1 = i := by
  have all : ∀ n0, n0 ≤ 32 → 1 ≤ n0 →
      (∀ write ∈ itabWrites n0 (dftFactorize n0), 0 ≤ write.1 ∧ write.1 < n0) ∧
        ∀ i, i < n0 → ∃ write ∈ itabWrites n0 (dftFactorize n0), write.1 = i := by
    decide +kernel
  exact all n0 fits positive

/-- What has been written does not depend on what was there before. -/
theorem store_agree {α : Type} (writes : List (Int × α)) (index : Int) (table other : Int → α)
    (agree : table index = other index ∨ ∃ write ∈ writes, write.1 = index) :
    store table writes index = store other writes index := by
  induction writes generalizing table other with
  | nil => simpa [store] using agree
  | cons first rest ih =>
    apply ih
    by_cases here : index = first.1
    · left
      dsimp only
      rw [here,Function.update_self,Function.update_self]
    · rcases agree with same | written
      · left
        dsimp only
        rw [Function.update_of_ne here,Function.update_of_ne here]
        exact same
      · right
        obtain ⟨write,member,at_index⟩ := written
        rcases List.mem_cons.mp member with now | later
        · exact absurd (now ▸ at_index.symm) here
        · exact ⟨write,later,at_index⟩

private theorem entry_range {α : Type} {index length : Nat} {write : Int × α} {value : α}
    (same : write = entry index value) (within : index < length) :
    0 ≤ write.1 ∧ write.1 < length := by
  subst same
  exact ⟨Int.natCast_nonneg index,Int.ofNat_lt.mpr within⟩

theorem waveWrites_range {D F : Type} [FloatType D] (math : Math D F) (n0 : Nat)
    (factors : List Nat) :
    ∀ write ∈ waveWrites math n0 factors, 0 ≤ write.1 ∧ write.1 < (2 * n0 : Nat) := by
  unfold waveWrites
  dsimp only
  split
  · split
    · intro write member
      simp only [List.mem_cons,List.not_mem_nil,or_false] at member
      rcases member with first | second
      · exact entry_range first (by omega)
      · exact entry_range second (by omega)
    · simp
  · apply forLoop_induct fun _ (state : (D × D) × List (Int × F)) =>
      ∀ write ∈ state.2, 0 ≤ write.1 ∧ write.1 < (2 * n0 : Nat)
    · intro write member
      rcases List.mem_append.mp member with start | middle
      · simp only [List.mem_cons,List.not_mem_nil,or_false] at start
        rcases start with first | second
        · exact entry_range first (by omega)
        · exact entry_range second (by omega)
      · split at middle
        · simp only [List.mem_cons,List.not_mem_nil,or_false] at middle
          rcases middle with first | second
          · exact entry_range first (by omega)
          · exact entry_range second (by omega)
        · simp at middle
    · intro i state within before write member
      rcases List.mem_append.mp member with earlier | now
      · exact before write earlier
      · simp only [List.mem_cons,List.not_mem_nil,or_false] at now
        rcases now with first | second | third | fourth
        · exact entry_range first (by omega)
        · exact entry_range second (by omega)
        · exact entry_range third (by omega)
        · exact entry_range fourth (by omega)

end VideoAnalytics.Dft
