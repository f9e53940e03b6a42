import VideoAnalytics.DftFactors
import VideoAnalytics.DftBits

/-! DFTInit with its reads checked: factors below nf, digits and radix not beyond nf and
after they have been written, itab after it has been written. -/
namespace VideoAnalytics.Dft
open Loop MixedRadix

inductive Misread
  | factors
  | digits
  | radix
  | itab
  | endless

/-- An array of 34 entries whose entries are none until they are written. -/
abbrev Entries := Nat → Option Nat

def factorAt (factors : List Nat) (k : Nat) : Except Misread Nat :=
  match factors[k]? with
  | some factor => .ok factor
  | none => .error .factors

/-- Entry k of digits or radix. -/
def entryAt (misread : Misread) (nf : Nat) (entries : Entries) (k : Nat) : Except Misread Nat :=
  if k ≤ nf then
    match entries k with
    | some value => .ok value
    | none => .error misread
  else .error misread

def itabAt (writes : List (Int × Int)) (index : Int) : Except Misread Int :=
  if index ∈ writes.map Prod.fst then .ok (lookup writes index) else .error .itab

structure Counter where
  digits : Entries
  radix : Entries

def initCounter (factors : List Nat) : Except Misread Counter :=
  let nf := factors.length
  tryLoop nf (fun i (counter : Counter) => do
    let digits := Function.update counter.digits i (some 0)
    let weight ← entryAt .radix nf counter.radix (nf - i)
    let factor ← factorAt factors (nf - i - 1)
    .ok ⟨digits,Function.update counter.radix (nf - i - 1) (some (weight * factor))⟩)
    ⟨Function.update (fun _ => none) nf (some 0),Function.update (fun _ => none) nf (some 1)⟩

def countUp (factors : List Nat) (radix : Entries) :
    Nat → Nat → Entries → Int → Except Misread (Entries × Int)
  | 0, _, _, _ => .error .endless
  | fuel + 1, k, digits, j => do
    let digit ← entryAt .digits factors.length digits k
    let digits := Function.update digits k (some (digit + 1))
    let factor ← factorAt factors k
    if digit + 1 ≥ factor then do
      let digits := Function.update digits k (some 0)
      let ahead ← entryAt .radix factors.length radix (k + 2)
      let here ← entryAt .radix factors.length radix k
      countUp factors radix fuel (k + 1) digits (j + ahead - here)
    else .ok (digits,j)

def evenFill (n n0 : Nat) (factors : List Nat) (radix : Entries) :
    Nat → Nat → Int → Entries → List (Int × Int) → Except Misread (List (Int × Int))
  | 0, _, _, _, _ => .error .endless
  | fuel + 1, i, j, digits, writes =>
    if i < n0 then do
      let writes ← tryLoop n (fun k writes => do
        let value ← itabAt writes k
        .ok (writes ++ [entry (i + k) (value + j)])) writes
      let i := i + n
      if i ≥ n0 then .ok writes
      else do
        let weight ← entryAt .radix factors.length radix 2
        let (digits,j) ← countUp factors radix 34 1 digits (j + weight)
        evenFill n n0 factors radix fuel i j digits writes
    else .ok writes

def oddFill (n0 : Nat) (factors : List Nat) (radix : Entries) :
    Nat → Nat → Int → Entries → List (Int × Int) → Except Misread (List (Int × Int))
  | 0, _, _, _, _ => .error .endless
  | fuel + 1, i, j, digits, writes => do
    let writes := writes ++ [entry i j]
    let i := i + 1
    if i ≥ n0 then .ok writes
    else do
      let weight ← entryAt .radix factors.length radix 1
      let (digits,j) ← countUp factors radix 34 0 digits (j + weight)
      oddFill n0 factors radix fuel i j digits writes

def dftInit (n0 : Nat) (factors : List Nat) : Except Misread (List (Int × Int)) := do
  let n ← factorAt factors 0
  if n0 ≤ 5 then .ok (itabWrites n0 factors)
  else do
    let nf := factors.length
    let counter ← initCounter factors
    if n % 2 = 0 then do
      let a ← entryAt .radix nf counter.radix 1
      let head := evenHead n a
      let digit ← entryAt .digits nf counter.digits 1
      let digits := Function.update counter.digits 1 (some (digit + 1))
      if nf ≥ 2 then do
        let j ← entryAt .radix nf counter.radix 2
        evenFill n n0 factors counter.radix n0 n j digits head
      else .ok head
    else oddFill n0 factors counter.radix n0 0 0 counter.digits []

/-- The entries that are written are those of the table. -/
def Shows (entries : Entries) (table : Nat → Nat) : Prop :=
  ∀ k value, entries k = some value → table k = value

private theorem Shows.update {entries : Entries} {table : Nat → Nat} (shows : Shows entries table)
    (k value : Nat) :
    Shows (Function.update entries k (some value)) (Function.update table k value) := by
  intro other result written
  by_cases here : other = k
  · subst here
    rw [Function.update_self] at written ⊢
    exact Option.some.inj written
  · rw [Function.update_of_ne here] at written ⊢
    exact shows other result written

private theorem entryAt_ok {misread : Misread} {nf k value : Nat} {entries : Entries}
    (passed : entryAt misread nf entries k = .ok value) : k ≤ nf ∧ entries k = some value := by
  unfold entryAt at passed
  split at passed
  · rename_i within
    split at passed
    · rename_i found written
      cases passed
      exact ⟨within,written⟩
    · cases passed
  · cases passed

theorem entryAt_eq {nf k value : Nat} {entries : Entries} (misread : Misread) (within : k ≤ nf)
    (written : entries k = some value) : entryAt misread nf entries k = .ok value := by
  unfold entryAt
  rw [if_pos within,written]

private theorem factorAt_ok {factors : List Nat} {k factor : Nat}
    (passed : factorAt factors k = .ok factor) : factors[k]? = some factor := by
  unfold factorAt at passed
  split at passed
  · rename_i found written
    cases passed
    exact written
  · cases passed

theorem factorAt_eq {factors : List Nat} {k factor : Nat} (found : factors[k]? = some factor) :
    factorAt factors k = .ok factor := by
  unfold factorAt
  rw [found]

private theorem factorAt_getD {factors : List Nat} {k factor : Nat}
    (passed : factorAt factors k = .ok factor) : factors.getD k 0 = factor := by
  rw [List.getD_eq_getElem?_getD,factorAt_ok passed]
  rfl

private theorem countUp_carry {factors : List Nat} {entries : Entries} {radix : Nat → Nat}
    (weights : Shows entries radix) {fuel k : Nat} {digits : Entries} {table : Nat → Nat}
    (shows : Shows digits table) {j : Int} {result : Entries × Int}
    (passed : countUp factors entries fuel k digits j = .ok result) :
    Shows result.1 (carry factors radix fuel k table j).1 ∧
      (carry factors radix fuel k table j).2 = result.2 := by
  induction fuel generalizing k digits table j with
  | zero => cases passed
  | succ fuel ih =>
    obtain ⟨digit,read,passed⟩ := bind_passed passed
    obtain ⟨factor,divisor,passed⟩ := bind_passed passed
    have digit_eq := shows k digit (entryAt_ok read).2
    unfold carry
    dsimp only
    rw [Function.update_self,digit_eq,factorAt_getD divisor]
    split at passed
    · rename_i full
      obtain ⟨ahead,first,passed⟩ := bind_passed passed
      obtain ⟨here,second,passed⟩ := bind_passed passed
      rw [if_pos full,weights _ _ (entryAt_ok first).2,weights _ _ (entryAt_ok second).2]
      apply ih _ passed
      rw [← digit_eq]
      exact (shows.update k _).update k 0
    · rename_i low
      rw [if_neg low]
      cases passed
      exact ⟨shows.update k _,rfl⟩

private theorem evenFill_blocks {n n0 : Nat} {factors : List Nat} {entries : Entries}
    {radix : Nat → Nat}
    (weights : Shows entries radix) {fuel i : Nat} {j : Int} {digits : Entries} {table : Nat → Nat}
    (shows : Shows digits table) {writes result : List (Int × Int)}
    (passed : evenFill n n0 factors entries fuel i j digits writes = .ok result) :
    evenBlocks n n0 factors radix fuel i j table writes = result := by
  induction fuel generalizing i j digits table writes with
  | zero => cases passed
  | succ fuel ih =>
    unfold evenFill at passed
    unfold evenBlocks
    split at passed
    · rename_i within
      obtain ⟨filled,block,passed⟩ := bind_passed passed
      have plain : filled = forLoop n
          (fun k writes => writes ++ [entry (i + k) (lookup writes k + j)]) writes := by
        apply tryLoop_value block
        intro k state next _ step
        obtain ⟨value,read,stored⟩ := bind_passed step
        unfold itabAt at read
        split at read
        · cases read
          exact (Except.ok.inj stored).symm
        · cases read
      rw [if_pos within,← plain]
      dsimp only at passed ⊢
      split at passed
      · rename_i ends
        rw [if_pos ends]
        exact Except.ok.inj passed
      · rename_i more
        rw [if_neg more]
        obtain ⟨weight,read,passed⟩ := bind_passed passed
        obtain ⟨counted,up,passed⟩ := bind_passed passed
        rw [weights _ _ (entryAt_ok read).2]
        obtain ⟨after,value⟩ := countUp_carry weights shows up
        rw [value]
        exact ih after passed
    · rename_i ends
      rw [if_neg ends]
      exact Except.ok.inj passed

private theorem oddFill_entries {n0 : Nat} {factors : List Nat} {entries : Entries}
    {radix : Nat → Nat}
    (weights : Shows entries radix) {fuel i : Nat} {j : Int} {digits : Entries} {table : Nat → Nat}
    (shows : Shows digits table) {writes result : List (Int × Int)}
    (passed : oddFill n0 factors entries fuel i j digits writes = .ok result) :
    oddEntries n0 factors radix fuel i j table writes = result := by
  induction fuel generalizing i j digits table writes with
  | zero => cases passed
  | succ fuel ih =>
    unfold oddFill at passed
    unfold oddEntries
    dsimp only at passed ⊢
    split at passed
    · rename_i ends
      rw [if_pos ends]
      exact Except.ok.inj passed
    · rename_i more
      rw [if_neg more]
      obtain ⟨weight,read,passed⟩ := bind_passed passed
      obtain ⟨counted,up,passed⟩ := bind_passed passed
      rw [weights _ _ (entryAt_ok read).2]
      obtain ⟨after,value⟩ := countUp_carry weights shows up
      rw [value]
      exact ih after passed

theorem drop_prod {factors : List Nat} {k : Nat} (low : k < factors.length) :
    (factors.drop k).prod = factors[k] * (factors.drop (k + 1)).prod := by
  rw [List.drop_eq_getElem_cons low,List.prod_cons]

/-- After i passes: the digits below i and the radix of the last i entries are there. -/
structure Initialised (factors : List Nat) (i : Nat) (digits radix : Entries) (table : Nat → Nat) :
    Prop where
  last : digits factors.length = some 0
  below : ∀ k, k < i → digits k = some 0
  zeros : Shows digits fun _ => 0
  product : ∀ k, factors.length ≤ k + i → k ≤ factors.length →
    radix k = some (factors.drop k).prod
  weights : Shows radix table

private theorem Shows.single (k value : Nat) : Shows
    (Function.update (fun _ => none) k (some value)) (Function.update (fun _ => 0) k value) := by
  apply Shows.update
  intro other result written
  cases written

private theorem initCounter_start (factors : List Nat) : Initialised factors 0
    (Function.update (fun _ => none) factors.length (some 0))
    (Function.update (fun _ => none) factors.length (some 1))
    (Function.update (fun _ => 0) factors.length 1) where
  last := Function.update_self _ _ _
  below k low := by omega
  zeros := by
    have single := Shows.single factors.length 0
    rwa [Function.update_eq_self factors.length fun _ => 0] at single
  product k above below := by
    have here : k = factors.length := by omega
    rw [here,Function.update_self,List.drop_length,List.prod_nil]
  weights := Shows.single factors.length 1

private theorem initCounter_step {factors : List Nat} {i : Nat} {digits radix : Entries}
    {table : Nat → Nat}
    (before : Initialised factors i digits radix table) (low : i < factors.length) :
    ∃ weight factor, entryAt .radix factors.length radix (factors.length - i) = .ok weight ∧
      factorAt factors (factors.length - i - 1) = .ok factor ∧
      Initialised factors (i + 1) (Function.update digits i (some 0))
        (Function.update radix (factors.length - i - 1) (some (weight * factor)))
        (Function.update table (factors.length - i - 1)
          (table (factors.length - i) * factors.getD (factors.length - i - 1) 0)) := by
  have within : factors.length - i - 1 < factors.length := by omega
  have weight := before.product (factors.length - i) (by omega) (by omega)
  have product : (factors.drop (factors.length - i - 1)).prod =
      factors[factors.length - i - 1] * (factors.drop (factors.length - i)).prod := by
    rw [drop_prod within]
    congr 3
    omega
  refine ⟨_,_,entryAt_eq .radix (by omega) weight,factorAt_eq (List.getElem?_eq_getElem within),?_⟩
  constructor
  · rw [Function.update_of_ne low.ne']
    exact before.last
  · intro k below
    by_cases here : k = i
    · rw [here,Function.update_self]
    · rw [Function.update_of_ne here]
      exact before.below k (by omega)
  · have zeros := before.zeros.update i 0
    rwa [Function.update_eq_self i fun _ => 0] at zeros
  · intro k above below
    by_cases here : k = factors.length - i - 1
    · rw [here,Function.update_self,product,Nat.mul_comm]
    · rw [Function.update_of_ne here]
      exact before.product k (by omega) below
  · rw [before.weights _ _ weight,List.getD_eq_getElem factors 0 within]
    exact before.weights.update _ _

/-- The digits are all zero, and the radix of an entry is the product of the factors from
it on. -/
theorem initCounter_eq (factors : List Nat) : ∃ counter, initCounter factors = .ok counter ∧
    Initialised factors factors.length counter.digits counter.radix (radixOf factors) := by
  apply tryLoop_induct fun i (counter : Counter) =>
    Initialised factors i counter.digits counter.radix (forLoop i _ _)
  · exact initCounter_start factors
  · intro i counter low before
    obtain ⟨weight,factor,first,second,after⟩ := initCounter_step before low
    refine ⟨⟨_,_⟩,?_,after⟩
    rw [first]
    show (factorAt factors (factors.length - i - 1) >>= fun factor => Except.ok _) = _
    rw [second]
    rfl

theorem dftInit_itabWrites {n0 : Nat} {factors : List Nat} {writes : List (Int × Int)}
    (passed : dftInit n0 factors = .ok writes) : writes = itabWrites n0 factors := by
  obtain ⟨n,first,passed⟩ := bind_passed passed
  split at passed
  · exact (Except.ok.inj passed).symm
  · rename_i large
    obtain ⟨counter,start,passed⟩ := bind_passed passed
    obtain ⟨started,same,initialised⟩ := initCounter_eq factors
    rw [start] at same
    cases same
    have head : factors.getD 0 0 = n := factorAt_getD first
    unfold itabWrites
    rw [if_neg large]
    dsimp only
    rw [head]
    split at passed
    · rename_i even
      obtain ⟨a,one,passed⟩ := bind_passed passed
      obtain ⟨digit,digits,passed⟩ := bind_passed passed
      rw [if_pos even,initialised.weights _ _ (entryAt_ok one).2]
      have zero : (0 : Nat) = digit := initialised.zeros _ _ (entryAt_ok digits).2
      split at passed
      · rename_i several
        obtain ⟨j,two,passed⟩ := bind_passed passed
        rw [if_pos several,initialised.weights _ _ (entryAt_ok two).2]
        subst zero
        exact (evenFill_blocks initialised.weights (initialised.zeros.update 1 1) passed).symm
      · rename_i single
        rw [if_neg single]
        exact (Except.ok.inj passed).symm
    · rename_i odd
      rw [if_neg odd]
      exact (oddFill_entries initialised.weights initialised.zeros passed).symm

end VideoAnalytics.Dft
