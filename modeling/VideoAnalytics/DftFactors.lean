import VideoAnalytics.Dft
import Mathlib.Data.Nat.Factorization.Basic
import Mathlib.Data.Nat.Prime.Basic
import Mathlib.Algebra.BigOperators.Group.List.Lemmas
import Mathlib.Algebra.Group.Nat.Even
import Mathlib.Data.List.GetD

/-! What DFTFactorize returns, and that it returns. -/
namespace VideoAnalytics.Dft
open Loop

/-- The loop that divides by 3, 5, … within so many passes: none when they do not do. -/
def oddFactorsWithin : Nat → Nat → Nat → List Nat → Option (List Nat × Nat)
  | 0, _, _, _ => none
  | fuel + 1, f, n, factors =>
    if n > 1 then
      let d := n / f
      if d * f = n then oddFactorsWithin fuel f d (factors ++ [f])
      else if (f + 2) * (f + 2) > n then some (factors,n)
      else oddFactorsWithin fuel (f + 2) n factors
    else some (factors,n)

/-- The last loop, with all the factors or all but an even one in the other order. -/
def turned (factors : List Nat) : List Nat :=
  let nf := factors.length
  let f := if factors.getD 0 0 % 2 = 0 then 1 else 0
  forLoop ((nf + f) / 2 - f)
    (fun pass factors => swap factors (f + pass) (nf - (f + pass) - 1 + f)) factors

/-- The factors with what is left, unless it is 1. -/
def closed (left : List Nat × Nat) : List Nat :=
  let (factors,n) := left
  if n > 1 then factors ++ [n] else factors

def dftFactorizeWithin (fuel n : Nat) : Option (List Nat) :=
  if n ≤ 5 then some [n]
  else do
    let f := (((n - 1) ^^^ n) + 1) >>> 1
    let (factors,n) := if f > 1 then ([f],if f = n then 1 else n / f) else ([],n)
    let left ← oddFactorsWithin fuel 3 n factors
    some (turned (closed left))

def OddPrime (p : Nat) : Prop := p.Prime ∧ p % 2 = 1

private theorem oddFactors_within {fuel f n : Nat} {factors : List Nat} {result : List Nat × Nat}
    (ends : oddFactorsWithin fuel f n factors = some result) : oddFactors fuel f n factors = result := by
  induction fuel generalizing f n factors with
  | zero => cases ends
  | succ fuel ih =>
    simp only [oddFactorsWithin,oddFactors] at ends ⊢
    split_ifs at ends ⊢ with more divides square
    · exact ih ends
    · exact Option.some.inj ends
    · exact ih ends
    · exact Option.some.inj ends

private theorem oddFactorsWithin_more {fuel f n : Nat} {factors : List Nat}
    {result : List Nat × Nat}
    (ends : oddFactorsWithin fuel f n factors = some result) (more : Nat) :
    oddFactorsWithin (fuel + more) f n factors = some result := by
  induction fuel generalizing f n factors with
  | zero => cases ends
  | succ fuel ih =>
    rw [Nat.succ_add]
    simp only [oddFactorsWithin] at ends ⊢
    split_ifs at ends ⊢ with more divides square
    · exact ih ends
    · exact ends
    · exact ih ends
    · exact ends

/-- A divisor is prime when no prime below it divides. -/
theorem prime_of_least {f n : Nat} (least : ∀ p, p.Prime → p ∣ n → f ≤ p) (larger : 2 ≤ f)
    (divides : f ∣ n) : f.Prime := by
  have factor : f.minFac.Prime := Nat.minFac_prime (by omega)
  have low : f ≤ f.minFac := least f.minFac factor ((Nat.minFac_dvd f).trans divides)
  have same : f.minFac = f := Nat.le_antisymm (Nat.minFac_le (by omega)) low
  exact same ▸ factor

private theorem prime_of_square {f n : Nat} (least : ∀ p, p.Prime → p ∣ n → f ≤ p) (larger : 1 < n)
    (square : n < f * f) : n.Prime := by
  by_contra composite
  have factor : f ≤ n.minFac := least n.minFac (Nat.minFac_prime (by omega)) (Nat.minFac_dvd n)
  have below : n.minFac ^ 2 ≤ n := Nat.minFac_sq_le_self (by omega) composite
  have above : f * f ≤ n.minFac * n.minFac := Nat.mul_le_mul factor factor
  rw [Nat.pow_two] at below
  omega

/-- The next odd number is the least that can divide. -/
theorem least_next {f n : Nat} (least : ∀ p, p.Prime → p ∣ n → f ≤ p) (odd : n % 2 = 1)
    (odd_factor : f % 2 = 1) (apart : ¬ f ∣ n) : ∀ p, p.Prime → p ∣ n → f + 2 ≤ p := by
  intro p prime divides
  have low := least p prime divides
  have different : p ≠ f := by
    rintro rfl
    exact apart divides
  have odd_prime : p % 2 = 1 := Nat.odd_iff.mp ((Nat.odd_iff.mpr odd).of_dvd_nat divides)
  omega

private theorem oddFactorsWithin_spec (fuel f n : Nat) (factors : List Nat) (start : 3 ≤ f)
    (odd_factor : f % 2 = 1) (odd : n % 2 = 1) (least : ∀ p, p.Prime → p ∣ n → f ≤ p)
    (enough : n + (n - f) < fuel) :
    ∃ found rest, oddFactorsWithin fuel f n factors = some (factors ++ found,rest) ∧
      found.prod * rest = n ∧ (∀ p ∈ found, OddPrime p) ∧ (1 < rest → OddPrime rest) := by
  induction fuel generalizing f n factors with
  | zero => omega
  | succ fuel ih =>
    unfold oddFactorsWithin
    by_cases done : n > 1
    · rw [if_pos done]
      dsimp only
      by_cases divides : n / f * f = n
      · rw [if_pos divides]
        have factor : n / f ∣ n := ⟨f,divides.symm⟩
        have smaller : n / f < n := Nat.div_lt_self (by omega) (by omega)
        have odd_rest : n / f % 2 = 1 :=
          Nat.odd_iff.mp ((Nat.odd_iff.mpr odd).of_dvd_nat factor)
        obtain ⟨found,rest,ends,product,primes,last⟩ := ih f (n / f) (factors ++ [f]) start
          odd_factor odd_rest (fun p prime below => least p prime (below.trans factor)) (by omega)
        refine ⟨f :: found,rest,?_,?_,?_,last⟩
        · rw [ends,List.append_assoc,List.singleton_append]
        · rw [List.prod_cons,Nat.mul_assoc,product,Nat.mul_comm,divides]
        · intro p member
          rcases List.mem_cons.mp member with here | later
          · subst here
            exact ⟨prime_of_least least (by omega) ⟨n / p,by rw [Nat.mul_comm,divides]⟩,odd_factor⟩
          · exact primes p later
      · rw [if_neg divides]
        have apart : ¬ f ∣ n := fun divisor => divides (Nat.div_mul_cancel divisor)
        have next := least_next least odd odd_factor apart
        by_cases square : (f + 2) * (f + 2) > n
        · rw [if_pos square]
          exact ⟨[],n,by rw [List.append_nil],Nat.one_mul n,by simp,
            fun _ => ⟨prime_of_square next done square,odd⟩⟩
        · rw [if_neg square]
          have below : f + 2 ≤ (f + 2) * (f + 2) := Nat.le_mul_self _
          exact ih (f + 2) n factors (by omega) (by omega) odd next (by omega)
    · rw [if_neg done]
      exact ⟨[],n,by rw [List.append_nil],Nat.one_mul n,by simp,fun more => absurd more done⟩

/-- The factors and what is left of an odd number, within twice its size. -/
theorem oddFactors_spec (n : Nat) (factors : List Nat) (odd : n % 2 = 1) :
    ∃ found rest, oddFactors (2 * n) 3 n factors = (factors ++ found,rest) ∧
      (∀ more, oddFactorsWithin (2 * n + more) 3 n factors = some (factors ++ found,rest)) ∧
      found.prod * rest = n ∧ (∀ p ∈ found, OddPrime p) ∧ (1 < rest → OddPrime rest) := by
  have least : ∀ p, p.Prime → p ∣ n → 3 ≤ p := by
    intro p prime divides
    have low := prime.two_le
    have odd_prime : p % 2 = 1 := Nat.odd_iff.mp ((Nat.odd_iff.mpr odd).of_dvd_nat divides)
    omega
  obtain ⟨found,rest,ends,parts⟩ := oddFactorsWithin_spec (2 * n) 3 n factors (Nat.le_refl 3) rfl odd
    least (by omega)
  exact ⟨found,rest,oddFactors_within ends,oddFactorsWithin_more ends,parts⟩

private theorem swap_perm {factors : List Nat} {i k : Nat} (low : i < factors.length)
    (below : k < factors.length) : (swap factors i k).Perm factors := by
  unfold swap
  rw [List.getD_eq_getElem factors 0 below,List.getD_eq_getElem factors 0 low]
  exact List.set_set_perm low below

private theorem swap_cons (first : Nat) (rest : List Nat) (i k : Nat) :
    swap (first :: rest) (i + 1) (k + 1) = first :: swap rest i k := rfl

private theorem turned_odd {factors : List Nat} (odd : ∀ f ∈ factors, f % 2 = 1) :
    (turned factors).Perm factors := by
  unfold turned
  dsimp only
  apply forLoop_induct fun _ (state : List Nat) => state.Perm factors
  · exact List.Perm.refl factors
  · intro pass state low perm
    have length := perm.length_eq
    cases factors with
    | nil => simp at low
    | cons first rest =>
      have first_odd : ¬ (first :: rest).getD 0 0 % 2 = 0 := by
        have head := odd first List.mem_cons_self
        rw [List.getD_cons_zero]
        omega
      rw [if_neg first_odd] at low ⊢
      exact (swap_perm (by omega) (by omega)).trans perm

private theorem turned_even {first : Nat} (rest : List Nat) (even : first % 2 = 0) :
    ∃ others, turned (first :: rest) = first :: others ∧ others.Perm rest := by
  have first_even : (first :: rest).getD 0 0 % 2 = 0 := even
  unfold turned
  dsimp only
  rw [if_pos first_even,List.length_cons]
  apply forLoop_induct fun _ (state : List Nat) =>
    ∃ others, state = first :: others ∧ others.Perm rest
  · exact ⟨rest,rfl,List.Perm.refl rest⟩
  · rintro pass state low ⟨others,rfl,perm⟩
    have length := perm.length_eq
    refine ⟨swap others pass (rest.length - 1 - pass),?_,(swap_perm (by omega) (by omega)).trans perm⟩
    rw [Nat.add_comm 1 pass,← swap_cons]
    congr 1
    omega

/-- The lowest bit and the bits below it. -/
theorem xor_pred (e k : Nat) (odd : k % 2 = 1) :
    ((2 ^ e * k - 1) ^^^ (2 ^ e * k)) + 1 = 2 ^ (e + 1) := by
  induction e with
  | zero =>
    have halves : (k - 1) / 2 = k / 2 := by omega
    have digit : ((k - 1) ^^^ k) % 2 = 1 := by
      rw [Nat.xor_mod_two_eq_one]
      omega
    have upper : ((k - 1) ^^^ k) / 2 = 0 := by
      rw [Nat.xor_div_two,halves,Nat.xor_self]
    rw [Nat.pow_zero,Nat.one_mul]
    omega
  | succ e ih =>
    have positive : 0 < 2 ^ e * k := Nat.mul_pos (Nat.two_pow_pos e) (by omega)
    have double : 2 ^ (e + 1) * k = 2 * (2 ^ e * k) := by ring
    rw [double,Nat.pow_succ 2 (e + 1)]
    have digit : ((2 * (2 ^ e * k) - 1) ^^^ (2 * (2 ^ e * k))) % 2 = 1 := by
      rw [Nat.xor_mod_two_eq_one]
      omega
    have upper : ((2 * (2 ^ e * k) - 1) ^^^ (2 * (2 ^ e * k))) / 2 =
        (2 ^ e * k - 1) ^^^ (2 ^ e * k) := by
      rw [Nat.xor_div_two]
      congr 1 <;> omega
    omega

private theorem lowest_power (e k : Nat) (odd : k % 2 = 1) :
    (((2 ^ e * k - 1) ^^^ (2 ^ e * k)) + 1) >>> 1 = 2 ^ e := by
  rw [xor_pred e k odd,Nat.shiftRight_one,Nat.pow_succ,Nat.mul_div_cancel _ Nat.two_pos]

private theorem odd_part (k : Nat) (before : List Nat) (odd : k % 2 = 1) :
    ∃ primes, closed (oddFactors (2 * k) 3 k before) = before ++ primes ∧
      (∀ fuel, 2 * k ≤ fuel →
        oddFactorsWithin fuel 3 k before = some (oddFactors (2 * k) 3 k before)) ∧
      primes.prod = k ∧ ∀ p ∈ primes, OddPrime p := by
  obtain ⟨found,rest,plain,ends,product,primes,last⟩ := oddFactors_spec k before odd
  have within : ∀ fuel, 2 * k ≤ fuel →
      oddFactorsWithin fuel 3 k before = some (oddFactors (2 * k) 3 k before) := by
    intro fuel enough
    obtain ⟨more,rfl⟩ := Nat.exists_eq_add_of_le enough
    rw [plain]
    exact ends more
  unfold closed
  rw [plain]
  dsimp only
  by_cases more : rest > 1
  · rw [if_pos more,List.append_assoc]
    refine ⟨found ++ [rest],rfl,plain ▸ within,?_,?_⟩
    · rw [List.prod_append,List.prod_singleton,product]
    · intro p member
      rcases List.mem_append.mp member with earlier | now
      · exact primes p earlier
      · rw [List.mem_singleton.mp now]
        exact last more
  · have positive : rest ≠ 0 := by
      rintro rfl
      rw [Nat.mul_zero] at product
      omega
    have single : rest = 1 := by omega
    rw [if_neg more]
    refine ⟨found,rfl,plain ▸ within,?_,primes⟩
    rw [← product,single,Nat.mul_one]

/-- What is left after an even number has been divided by its largest power of two. -/
theorem divided_even (e k : Nat) :
    (if 2 ^ (e + 1) = 2 ^ (e + 1) * k then 1 else 2 ^ (e + 1) * k / 2 ^ (e + 1)) = k := by
  have positive := Nat.two_pow_pos (e + 1)
  split
  · rename_i same
    apply Nat.eq_of_mul_eq_mul_left positive
    rw [Nat.mul_one]
    exact same
  · exact Nat.mul_div_cancel_left k positive

private theorem dftFactorize_even (e k : Nat) (odd : k % 2 = 1) (large : 6 ≤ 2 ^ (e + 1) * k) :
    ∃ primes, dftFactorize (2 ^ (e + 1) * k) = turned (2 ^ (e + 1) :: primes) ∧
      (∀ fuel, 2 * k ≤ fuel →
        dftFactorizeWithin fuel (2 ^ (e + 1) * k) = some (dftFactorize (2 ^ (e + 1) * k))) ∧
      primes.prod = k ∧ ∀ p ∈ primes, OddPrime p := by
  have power : 1 < 2 ^ (e + 1) := Nat.one_lt_two_pow (Nat.succ_ne_zero e)
  obtain ⟨primes,factors,ends,product,prime⟩ := odd_part k [2 ^ (e + 1)] odd
  have plain : dftFactorize (2 ^ (e + 1) * k) =
      turned (closed (oddFactors (2 * k) 3 k [2 ^ (e + 1)])) := by
    unfold dftFactorize
    rw [if_neg (by omega)]
    dsimp only
    rw [lowest_power (e + 1) k odd,if_pos power,divided_even]
    rfl
  refine ⟨primes,?_,?_,product,prime⟩
  · rw [plain,factors]
    rfl
  · intro fuel enough
    unfold dftFactorizeWithin
    rw [if_neg (by omega)]
    dsimp only
    rw [lowest_power (e + 1) k odd,if_pos power,divided_even,ends fuel enough,plain]
    rfl

private theorem dftFactorize_odd (n : Nat) (odd : n % 2 = 1) (large : 6 ≤ n) :
    ∃ primes, dftFactorize n = turned primes ∧
      (∀ fuel, 2 * n ≤ fuel → dftFactorizeWithin fuel n = some (dftFactorize n)) ∧
      primes.prod = n ∧ ∀ p ∈ primes, OddPrime p := by
  have unit : (((n - 1) ^^^ n) + 1) >>> 1 = 1 := by
    have lowest := lowest_power 0 n odd
    rwa [Nat.pow_zero,Nat.one_mul] at lowest
  obtain ⟨primes,factors,ends,product,prime⟩ := odd_part n [] odd
  have plain : dftFactorize n = turned (closed (oddFactors (2 * n) 3 n [])) := by
    unfold dftFactorize
    rw [if_neg (by omega)]
    dsimp only
    rw [unit,if_neg (Nat.lt_irrefl 1)]
    rfl
  refine ⟨primes,?_,?_,product,prime⟩
  · rw [plain,factors]
    rfl
  · intro fuel enough
    unfold dftFactorizeWithin
    rw [if_neg (by omega)]
    dsimp only
    rw [unit,if_neg (Nat.lt_irrefl 1),ends fuel enough,plain]
    rfl

/-- A number splits into its largest power of two and an odd one. -/
theorem exists_odd_part {n : Nat} (positive : 1 ≤ n) : ∃ e k, k % 2 = 1 ∧ n = 2 ^ e * k := by
  obtain ⟨e,k,odd,same⟩ := Nat.exists_eq_two_pow_mul_odd (Nat.pos_iff_ne_zero.mp positive)
  exact ⟨e,k,Nat.odd_iff.mp odd,same⟩

theorem dftFactorize_within (n : Nat) (positive : 1 ≤ n) (fuel : Nat) (enough : 2 * n ≤ fuel) :
    dftFactorizeWithin fuel n = some (dftFactorize n) := by
  by_cases small : n ≤ 5
  · unfold dftFactorizeWithin dftFactorize
    rw [if_pos small,if_pos small]
  · obtain ⟨e,k,odd,rfl⟩ := exists_odd_part positive
    cases e with
    | zero =>
      rw [Nat.pow_zero,Nat.one_mul] at *
      obtain ⟨primes,plain,ends,parts⟩ := dftFactorize_odd k odd (by omega)
      exact ends fuel enough
    | succ e =>
      obtain ⟨primes,plain,ends,parts⟩ := dftFactorize_even e k odd (by omega)
      apply ends
      have factor : k ≤ 2 ^ (e + 1) * k := Nat.le_mul_of_pos_left k (Nat.two_pow_pos (e + 1))
      omega

/-- The factors of an even number: its largest power of two, then odd primes. -/
theorem evenFactors {n : Nat} (even : n % 2 = 0) (large : 6 ≤ n) :
    ∃ e rest, dftFactorize n = 2 ^ (e + 1) :: rest ∧ ¬ 2 ^ (e + 2) ∣ n ∧
      2 ^ (e + 1) * rest.prod = n ∧ ∀ p ∈ rest, OddPrime p := by
  obtain ⟨e,k,odd,rfl⟩ := exists_odd_part (by omega : 1 ≤ n)
  cases e with
  | zero =>
    rw [Nat.pow_zero,Nat.one_mul] at even
    omega
  | succ e =>
    obtain ⟨primes,plain,_,product,prime⟩ := dftFactorize_even e k odd large
    have even_power : 2 ^ (e + 1) % 2 = 0 := by
      rw [Nat.pow_succ]
      exact Nat.mul_mod_left _ 2
    obtain ⟨rest,same,perm⟩ := turned_even primes even_power
    refine ⟨e,rest,plain.trans same,?_,?_,fun p member => prime p (perm.mem_iff.mp member)⟩
    · rw [Nat.pow_succ]
      intro divides
      have two := Nat.dvd_of_mul_dvd_mul_left (Nat.two_pow_pos (e + 1)) divides
      omega
    · rw [perm.prod_eq,product]

theorem oddPrimes {n : Nat} (odd : n % 2 = 1) (large : 6 ≤ n) :
    (dftFactorize n).prod = n ∧ ∀ p ∈ dftFactorize n, OddPrime p := by
  obtain ⟨primes,plain,_,product,prime⟩ := dftFactorize_odd n odd large
  have perm := turned_odd fun p member => (prime p member).2
  rw [plain]
  exact ⟨perm.prod_eq.trans product,fun p member => prime p (perm.mem_iff.mp member)⟩

theorem dftFactorize_prod (n : Nat) : (dftFactorize n).prod = n := by
  by_cases small : n ≤ 5
  · unfold dftFactorize
    rw [if_pos small,List.prod_singleton]
  · rcases Nat.mod_two_eq_zero_or_one n with even | odd
    · obtain ⟨e,rest,same,_,product,_⟩ := evenFactors even (by omega)
      rw [same,List.prod_cons,product]
    · exact (oddPrimes odd (by omega)).1

end VideoAnalytics.Dft
