import VideoAnalytics.DftInit

/-! What DFTInit writes for the factors of DFTFactorize. -/
namespace VideoAnalytics.Dft
open Loop MixedRadix

/-- Every entry of radix from the first to nf is there. -/
def Weighs (radix : Entries) (factors : List Nat) : Prop :=
  ∀ k, k ≤ factors.length → radix k = some (factors.drop k).prod

section CountUp

variable {factors : List Nat} {radix : Entries} {fuel k digit factor : Nat} {digits : Entries} {j : Int}

private theorem countUp_low (low : k < factors.length) (read : digits k = some digit)
    (divisor : factorAt factors k = .ok factor) (room : digit + 1 < factor) :
    countUp factors radix (fuel + 1) k digits j =
      .ok (Function.update digits k (some (digit + 1)),j) := by
  unfold countUp
  rw [entryAt_eq .digits low.le read]
  show (factorAt factors k >>= fun factor => _) = _
  rw [divisor]
  exact if_neg (Nat.not_le.mpr room)

private theorem countUp_full (weighs : Weighs radix factors) (low : k + 1 < factors.length)
    (read : digits k = some digit) (divisor : factorAt factors k = .ok factor)
    (full : factor ≤ digit + 1) :
    countUp factors radix (fuel + 1) k digits j =
      countUp factors radix fuel (k + 1)
        (Function.update (Function.update digits k (some (digit + 1))) k (some 0))
        (j + (factors.drop (k + 2)).prod - (factors.drop k).prod) := by
  rw [countUp.eq_2,entryAt_eq .digits (by omega) read]
  show (factorAt factors k >>= fun factor => _) = _
  rw [divisor]
  show ite _ _ _ = _
  rw [if_pos full,entryAt_eq .radix (by omega) (weighs (k + 2) (by omega)),
    entryAt_eq .radix (by omega) (weighs k (by omega))]
  rfl

end CountUp

/-- Counting from a number to the next turns its reversed value into that of the next. -/
theorem countUp_eq {factors : List Nat} {radix : Entries} (weighs : Weighs radix factors)
    {suffix : List Nat} (larger : ∀ f ∈ suffix, 1 < f) {k : Nat} (from_k : factors.drop k = suffix)
    {fuel q : Nat} {digits : Entries} (j : Int) (enough : suffix.length < fuel)
    (more : q + 1 < suffix.prod) (counts : Counts digits suffix k q) :
    ∃ after, countUp factors radix fuel k digits (j + (factors.drop (k + 1)).prod) =
        .ok (after,j + reverse suffix (q + 1) - reverse suffix q) ∧
      Counts after suffix k (q + 1) ∧ ∀ i, i < k → after i = digits i := by
  induction suffix generalizing k fuel q digits j with
  | nil =>
    rw [List.prod_nil] at more
    omega
  | cons f rest ih =>
    obtain ⟨fuel,rfl⟩ := Nat.exists_eq_succ_of_ne_zero (Nat.ne_zero_of_lt enough)
    obtain ⟨digit,others⟩ := counts
    have low : k < factors.length := by
      by_contra beyond
      rw [List.drop_of_length_le (by omega)] at from_k
      cases from_k
    have product := drop_prod low
    rw [List.drop_eq_getElem_cons low] at from_k
    obtain ⟨here,from_next⟩ := List.cons.inj from_k
    have divisor : factorAt factors k = .ok f :=
      factorAt_eq (by rw [List.getElem?_eq_getElem low,here])
    have size : 1 < f := larger f List.mem_cons_self
    rw [List.prod_cons] at more
    rw [here,from_next] at product
    unfold reverse
    by_cases room : q % f + 1 < f
    · obtain ⟨next,same⟩ := reverse_digit room
      rw [countUp_low low digit divisor room,from_next,next,same]
      refine ⟨Function.update digits k (some (q % f + 1)),?_,⟨?_,?_⟩,?_⟩
      · congr 2
        push_cast
        ring
      · rw [Function.update_self,next]
      · rw [same]
        apply others.congr
        intro i above
        exact Function.update_of_ne (by omega) _ _
      · intro i below
        exact Function.update_of_ne (by omega) _ _
    · have last : f ≤ q % f + 1 := by omega
      obtain ⟨full,next,up⟩ := reverse_carry (by omega : 0 < f) last
      have rest_more : q / f + 1 < rest.prod := by
        rw [← up]
        exact Nat.div_lt_of_lt_mul more
      have further : k + 1 < factors.length := by
        by_contra beyond
        rw [List.drop_of_length_le (by omega)] at from_next
        rw [← from_next,List.prod_nil] at rest_more
        exact Nat.not_lt_zero _ (Nat.lt_of_succ_lt_succ rest_more)
      have counts : Counts (Function.update (Function.update digits k (some (q % f + 1))) k (some 0))
          rest (k + 1) (q / f) := by
        apply others.congr
        intro i above
        rw [Function.update_of_ne (by omega),Function.update_of_ne (by omega)]
      obtain ⟨after,counted,held,kept⟩ := ih (fun f member => larger f (List.mem_cons_of_mem _ member))
        from_next (j + rest.prod - f * rest.prod) (Nat.lt_of_succ_lt_succ enough)
        rest_more counts
      refine ⟨after,?_,⟨?_,?_⟩,?_⟩
      · have start : j + (rest.prod : Nat) + (factors.drop (k + 2)).prod - (f * rest.prod : Nat) =
            j + rest.prod - f * rest.prod + (factors.drop (k + 1 + 1)).prod := by
          push_cast
          ring
        have digit_value : (q : Int) % f = f - 1 := by omega
        rw [countUp_full weighs further digit divisor last,product,from_next,next,up,start,counted]
        congr 2
        push_cast
        rw [digit_value]
        ring
      · rw [kept k (Nat.lt_succ_self k),Function.update_self,next]
      · rw [up]
        exact held
      · intro i below
        rw [kept i (by omega),Function.update_of_ne (by omega),Function.update_of_ne (by omega)]

private theorem oddFill_eq {n0 : Nat} {factors : List Nat} {radix : Entries}
    (weighs : Weighs radix factors)
    (larger : ∀ f ∈ factors, 1 < f) (few : factors.length < 34) (product : factors.prod = n0)
    {remaining fuel i : Nat} {digits : Entries} (writes : List (Int × Int))
    (ends : i + remaining + 1 = n0) (enough : remaining < fuel) (counts : Counts digits factors 0 i) :
    oddFill n0 factors radix fuel i (reverse factors i) digits writes =
      .ok (writes ++ (List.range' i (remaining + 1)).map fun k => entry k ((reverse factors k : Nat) : Int)) := by
  induction remaining generalizing fuel i digits writes with
  | zero =>
    obtain ⟨fuel,rfl⟩ := Nat.exists_eq_succ_of_ne_zero (Nat.ne_zero_of_lt enough)
    unfold oddFill
    dsimp only
    rw [if_pos (by omega)]
    rfl
  | succ remaining ih =>
    obtain ⟨fuel,rfl⟩ := Nat.exists_eq_succ_of_ne_zero (Nat.ne_zero_of_lt enough)
    have several : 1 ≤ factors.length := by
      by_contra none
      rw [List.length_eq_zero_iff.mp (by omega : factors.length = 0),List.prod_nil] at product
      omega
    obtain ⟨after,counted,held,_⟩ := countUp_eq weighs larger (List.drop_zero)
      (reverse factors i) few (by omega) counts
    have value : (reverse factors i : Int) + reverse factors (i + 1) - reverse factors i =
        reverse factors (i + 1) := by omega
    rw [value] at counted
    unfold oddFill
    dsimp only
    rw [if_neg (by omega),entryAt_eq .radix several (weighs 1 several)]
    show (countUp _ _ _ _ _ _ >>= fun counted => _) = _
    rw [counted]
    show oddFill _ _ _ _ _ _ _ _ = _
    rw [ih _ (by omega) (by omega) held,List.range'_succ,List.map_cons,List.append_assoc]
    rfl

private theorem lookup_range {count k : Nat} (values : Nat → Int) (low : k < count) :
    lookup ((List.range count).map fun i => entry i (values i)) k = values k := by
  unfold lookup
  induction count with
  | zero => omega
  | succ count ih =>
    rw [List.range_succ,List.map_append,List.foldl_append]
    show ite _ _ _ = _
    by_cases here : k = count
    · subst here
      exact if_pos rfl
    · have other : ¬ (count : Int) = k := by omega
      exact (if_neg other).trans (ih (by omega))

private theorem itabAt_range {count k : Nat} (values : Nat → Int) (low : k < count) :
    itabAt ((List.range count).map fun i => entry i (values i)) k = .ok (values k) := by
  unfold itabAt
  rw [if_pos _,lookup_range values low]
  rw [List.map_map]
  exact List.mem_map.mpr ⟨k,List.mem_range.mpr low,rfl⟩

/-- One block: the first n entries again, further on by what the block counts. -/
theorem block_eq {n b : Nat} {values : Nat → Int} {j : Int} (positive : 1 ≤ b)
    (next : ∀ k, k < n → values (n * b + k) = values k + j) :
    tryLoop n (fun k writes => do
      let value ← itabAt writes k
      .ok (writes ++ [entry (n * b + k) (value + j)]))
      ((List.range (n * b)).map fun i => entry i (values i)) =
      .ok ((List.range (n * (b + 1))).map fun i => entry i (values i)) := by
  have larger : n ≤ n * b := Nat.le_mul_of_pos_right n positive
  have filled : ∃ after, tryLoop n (fun k writes => do
      let value ← itabAt writes k
      .ok (writes ++ [entry (n * b + k) (value + j)]))
      ((List.range (n * b)).map fun i => entry i (values i)) = .ok after ∧
        after = (List.range (n * b + n)).map fun i => entry i (values i) := by
    apply tryLoop_induct fun k writes =>
      writes = (List.range (n * b + k)).map fun i => entry i (values i)
    · rfl
    · rintro k _ low rfl
      refine ⟨_,?_,rfl⟩
      rw [itabAt_range values (by omega)]
      show Except.ok _ = _
      rw [← Nat.add_assoc,List.range_succ,List.map_append,← next k low]
      rfl
  obtain ⟨after,passed,same⟩ := filled
  rw [passed,same,Nat.mul_succ]

/-- The blocks from the second on, as the digits count them. -/
theorem evenFill_eq {n n0 : Nat} {factors rest : List Nat} {radix : Entries}
    (weighs : Weighs radix factors) (from_one : factors.drop 1 = rest)
    (larger : ∀ f ∈ rest, 1 < f) (few : factors.length < 34) (several : 2 ≤ factors.length)
    (product : n * rest.prod = n0) (positive : 1 ≤ n) (values : Nat → Int)
    (blocks : ∀ b k, k < n → values (n * b + k) = values k + reverse rest b)
    {remaining fuel b : Nat} {digits : Entries} (started : 1 ≤ b)
    (ends : b + remaining + 1 = rest.prod) (enough : remaining < fuel) (counts : Counts digits rest 1 b) :
    evenFill n n0 factors radix fuel (n * b) (reverse rest b) digits
        ((List.range (n * b)).map fun i => entry i (values i)) =
      .ok ((List.range n0).map fun i => entry i (values i)) := by
  have next : ∀ b, n * b + n = n * (b + 1) := fun b => (Nat.mul_succ n b).symm
  induction remaining generalizing fuel b digits with
  | zero =>
    obtain ⟨fuel,rfl⟩ := Nat.exists_eq_succ_of_ne_zero (Nat.ne_zero_of_lt enough)
    have last : n * (b + 1) = n0 := by rw [← product,← ends]
    have within : n * b < n0 := by
      rw [← last,← next]
      omega
    unfold evenFill
    rw [if_pos within,block_eq started (blocks b)]
    show ite _ _ _ = _
    rw [next,last,if_pos (Nat.le_refl n0)]
  | succ remaining ih =>
    obtain ⟨fuel,rfl⟩ := Nat.exists_eq_succ_of_ne_zero (Nat.ne_zero_of_lt enough)
    have later : n * (b + 1 + 1) ≤ n0 := by
      rw [← product]
      exact Nat.mul_le_mul_left n (by omega)
    have ahead := next b
    have further := next (b + 1)
    have tail : rest.length + 1 = factors.length := by
      rw [← from_one,List.length_drop]
      omega
    obtain ⟨after,counted,held,_⟩ := countUp_eq weighs larger from_one (reverse rest b)
      (by omega : rest.length < 34) (by omega) counts
    have value : (reverse rest b : Int) + reverse rest (b + 1) - reverse rest b =
        reverse rest (b + 1) := by omega
    rw [value] at counted
    unfold evenFill
    rw [if_pos (by omega),block_eq started (blocks b)]
    show ite _ _ _ = _
    rw [ahead,if_neg (by omega),entryAt_eq .radix several (weighs 2 several)]
    show (countUp _ _ _ _ _ _ >>= fun counted => _) = _
    rw [counted]
    show evenFill _ _ _ _ _ _ _ _ _ = _
    exact ih (by omega) (by omega) (by omega) held

private theorem Initialised.weighs {factors : List Nat} {digits radix : Entries} {table : Nat → Nat}
    (initialised : Initialised factors factors.length digits radix table) : Weighs radix factors :=
  fun k low => initialised.product k (Nat.le_add_left _ _) low

private theorem Initialised.zero {factors : List Nat} {digits radix : Entries} {table : Nat → Nat}
    (initialised : Initialised factors factors.length digits radix table) {k : Nat}
    (low : k ≤ factors.length) : digits k = some 0 := by
  rcases Nat.lt_or_eq_of_le low with below | last
  · exact initialised.below k below
  · rw [last]
    exact initialised.last

/-- The value of an entry for an even first factor. -/
def evenValue (n : Nat) (rest : List Nat) (i : Nat) : Nat :=
  headValue n (i % n) * rest.prod + reverse rest (i / n)

private theorem evenValue_head {n : Nat} (rest : List Nat) {i : Nat} (low : i < n) :
    evenValue n rest i = headValue n i * rest.prod := by
  unfold evenValue
  rw [Nat.mod_eq_of_lt low,Nat.div_eq_of_lt low,reverse_zero,Nat.add_zero]

private theorem evenValue_block {n : Nat} (rest : List Nat) (b : Nat) {k : Nat} (low : k < n) :
    evenValue n rest (n * b + k) = evenValue n rest k + reverse rest b := by
  rw [evenValue_head rest low]
  unfold evenValue
  rw [Nat.mul_comm n b,cell_row b low,cell_col b low]

private theorem evenValue_permutes {e : Nat} (width : e < 34) (rest : List Nat) :
    Permutes (2 ^ (e + 1) * rest.prod) (evenValue (2 ^ (e + 1)) rest) :=
  (headValue_permutes width).reversed (reverse_permutes rest)

private theorem dftInit_even {e n0 : Nat} {rest : List Nat} (large : 6 ≤ n0)
    (product : 2 ^ (e + 1) * rest.prod = n0) (larger : ∀ f ∈ rest, 1 < f)
    (few : (2 ^ (e + 1) :: rest).length < 34) :
    dftInit n0 (2 ^ (e + 1) :: rest) =
      .ok ((List.range n0).map fun i => entry i ((evenValue (2 ^ (e + 1)) rest i : Nat) : Int)) := by
  have positive := Nat.two_pow_pos (e + 1)
  have even : 2 ^ (e + 1) % 2 = 0 := by
    rw [Nat.pow_succ]
    exact Nat.mul_mod_left _ 2
  obtain ⟨counter,start,initialised⟩ := initCounter_eq (2 ^ (e + 1) :: rest)
  have one : 1 ≤ (2 ^ (e + 1) :: rest).length := Nat.succ_le_succ (Nat.zero_le _)
  have head : evenHead (2 ^ (e + 1)) rest.prod = (List.range (2 ^ (e + 1))).map fun i =>
      entry i ((evenValue (2 ^ (e + 1)) rest i : Nat) : Int) := by
    rw [evenHead_eq]
    apply List.map_congr_left
    intro i low
    rw [evenValue_head rest (List.mem_range.mp low)]
  unfold dftInit
  show (if n0 ≤ 5 then _ else _) = _
  rw [if_neg (by omega),start]
  show (if 2 ^ (e + 1) % 2 = 0 then _ else _) = _
  rw [if_pos even,entryAt_eq .radix one (initialised.weighs 1 one)]
  show (entryAt _ _ _ _ >>= fun digit => _) = _
  rw [entryAt_eq .digits one (initialised.zero one)]
  show (if (2 ^ (e + 1) :: rest).length ≥ 2 then _ else _) = _
  cases rest with
  | nil =>
    rw [List.prod_nil,Nat.mul_one] at product
    rw [if_neg (by simp),← product]
    exact congrArg Except.ok head
  | cons f more =>
    have two : 2 ≤ (2 ^ (e + 1) :: f :: more).length := by
      simp only [List.length_cons]
      omega
    have size : 1 < f := larger f List.mem_cons_self
    have several : 1 < (f :: more).prod := by
      have rest_positive : 0 < more.prod :=
        List.prod_pos_iff_forall_pos_nat.mpr fun f member =>
          Nat.zero_lt_of_lt (larger f (List.mem_cons_of_mem _ member))
      rw [List.prod_cons]
      exact Nat.lt_of_lt_of_le size (Nat.le_mul_of_pos_right f rest_positive)
    have bound : (f :: more).prod ≤ n0 := by
      rw [← product]
      exact Nat.le_mul_of_pos_left _ positive
    have first : reverse (f :: more) 1 = more.prod := by
      unfold reverse
      rw [Nat.mod_eq_of_lt size,Nat.div_eq_of_lt size,reverse_zero,Nat.one_mul,Nat.add_zero]
    have counts : Counts (Function.update counter.digits 1 (some (0 + 1))) (f :: more) 1 1 := by
      refine ⟨?_,?_⟩
      · rw [Function.update_self,Nat.mod_eq_of_lt size]
      · rw [Nat.div_eq_of_lt size]
        have zeros : Counts counter.digits more (1 + 1) 0 := by
          apply Counts.zero
          intro i low
          apply initialised.zero
          simp only [List.length_cons]
          omega
        apply zeros.congr
        intro i above
        exact Function.update_of_ne (by omega) _ _
    rw [if_pos two,entryAt_eq .radix two (initialised.weighs 2 two)]
    show evenFill _ _ _ _ _ _ ((more.prod : Nat) : Int) _
      (evenHead _ (f :: more).prod) = _
    rw [head,← first]
    have tail : (2 ^ (e + 1) :: f :: more).drop 1 = f :: more := rfl
    have blocks : ∀ b k, k < 2 ^ (e + 1) →
        ((evenValue (2 ^ (e + 1)) (f :: more) (2 ^ (e + 1) * b + k) : Nat) : Int) =
          (evenValue (2 ^ (e + 1)) (f :: more) k : Nat) + reverse (f :: more) b := by
      intro b k low
      rw [evenValue_block (f :: more) b low,Nat.cast_add]
    have filled := evenFill_eq initialised.weighs tail larger few two product positive
      (fun i => ((evenValue (2 ^ (e + 1)) (f :: more) i : Nat) : Int)) blocks
      (Nat.le_refl 1) (by omega : 1 + ((f :: more).prod - 2) + 1 = (f :: more).prod)
      (by omega : (f :: more).prod - 2 < n0) counts
    rw [Nat.mul_one] at filled
    exact filled

private theorem dftInit_odd {n0 : Nat} {factors : List Nat} (large : 6 ≤ n0)
    (product : factors.prod = n0)
    (odd : ∀ f ∈ factors, 1 < f ∧ f % 2 = 1) (few : factors.length < 34) :
    dftInit n0 factors =
      .ok ((List.range n0).map fun i => entry i ((reverse factors i : Nat) : Int)) := by
  cases factors with
  | nil =>
    rw [List.prod_nil] at product
    omega
  | cons n rest =>
    have first := (odd n List.mem_cons_self).2
    obtain ⟨counter,start,initialised⟩ := initCounter_eq (n :: rest)
    have counts : Counts counter.digits (n :: rest) 0 0 := by
      apply Counts.zero
      intro i low
      exact initialised.zero (by omega)
    unfold dftInit
    show (if n0 ≤ 5 then _ else _) = _
    rw [if_neg (by omega),start]
    show (if n % 2 = 0 then _ else _) = _
    rw [if_neg (by omega)]
    have filled := oddFill_eq initialised.weighs (fun f member => (odd f member).1) few product []
      (by omega : 0 + (n0 - 1) + 1 = n0) (by omega : n0 - 1 < n0) counts
    rw [reverse_zero,Nat.sub_add_cancel (by omega),← List.range_eq_range',List.nil_append] at filled
    exact filled

/-- The table holds each number below n once, in entries that each were written once. -/
theorem filled_perm {n : Nat} {values : Nat → Nat} (permutes : Permutes n values) :
    (((List.range n).map fun i => entry i ((values i : Nat) : Int)).map Prod.fst =
      (List.range n).map Int.ofNat) ∧
      (((List.range n).map fun i => entry i ((values i : Nat) : Int)).map Prod.snd).Perm
        ((List.range n).map Int.ofNat) := by
  rw [List.map_map,List.map_map]
  refine ⟨rfl,?_⟩
  have perm := permutes.perm.map Int.ofNat
  rw [List.map_map] at perm
  exact perm

private theorem OddPrime.larger {p : Nat} (prime : OddPrime p) : 1 < p := prime.1.one_lt

private theorem dftInit_dftFactorize {n : Nat} (large : 6 ≤ n) (power : ¬ 2 ^ 35 ∣ n)
    (few : (dftFactorize n).length < 34) :
    ∃ values, Permutes n values ∧ dftInit n (dftFactorize n) =
      .ok ((List.range n).map fun i => entry i ((values i : Nat) : Int)) := by
  rcases Nat.mod_two_eq_zero_or_one n with even | odd
  · obtain ⟨e,rest,factors,_,product,primes⟩ := evenFactors even large
    have width : e < 34 := by
      by_contra wide
      apply power
      rw [← product]
      exact Nat.dvd_mul_right_of_dvd (Nat.pow_dvd_pow 2 (by omega)) _
    rw [factors] at few ⊢
    refine ⟨evenValue (2 ^ (e + 1)) rest,product ▸ evenValue_permutes width rest,?_⟩
    exact dftInit_even large product (fun f member => (primes f member).larger) few
  · obtain ⟨product,primes⟩ := oddPrimes odd large
    refine ⟨reverse (dftFactorize n),?_,?_⟩
    · have permutes := reverse_permutes (dftFactorize n)
      rwa [product] at permutes
    · exact dftInit_odd large product
        (fun f member => ⟨(primes f member).larger,(primes f member).2⟩) few

/-- The factors and the table of every length that an int has. -/
theorem dft_tables_valid (n : Nat) (positive : 1 ≤ n) :
    (∀ fuel, 2 * n ≤ fuel → dftFactorizeWithin fuel n = some (dftFactorize n)) ∧
      (dftFactorize n).prod = n ∧
      (6 ≤ n → n % 2 = 0 → ∃ e rest, dftFactorize n = 2 ^ e :: rest ∧ 2 ^ e ∣ n ∧
        ¬ 2 ^ (e + 1) ∣ n ∧ ∀ p ∈ rest, p.Prime ∧ p % 2 = 1) ∧
      (6 ≤ n → n % 2 = 1 → ∀ p ∈ dftFactorize n, p.Prime ∧ p % 2 = 1) ∧
      (6 ≤ n → n ≤ 2147483647 → (dftFactorize n).length < 34 → ∃ writes,
        dftInit n (dftFactorize n) = .ok writes ∧ writes = itabWrites n (dftFactorize n) ∧
          writes.map Prod.fst = (List.range n).map Int.ofNat ∧
          (writes.map Prod.snd).Perm ((List.range n).map Int.ofNat)) := by
  refine ⟨dftFactorize_within n positive,dftFactorize_prod n,?_,?_,?_⟩
  · intro large even
    obtain ⟨e,rest,factors,largest,product,primes⟩ := evenFactors even large
    exact ⟨e + 1,rest,factors,⟨rest.prod,product.symm⟩,largest,primes⟩
  · intro large odd
    exact (oddPrimes odd large).2
  · intro large range few
    have power : ¬ 2 ^ 35 ∣ n := Nat.not_dvd_of_pos_of_lt positive (by omega)
    obtain ⟨values,permutes,passed⟩ := dftInit_dftFactorize large power few
    obtain ⟨indices,perm⟩ := filled_perm permutes
    exact ⟨_,passed,dftInit_itabWrites passed,indices,perm⟩

theorem dft_tables_valid_twelve : 1 ≤ 12 ∧ ∃ writes, dftInit 12 (dftFactorize 12) = .ok writes ∧
    writes = itabWrites 12 (dftFactorize 12) ∧
    writes.map Prod.fst = (List.range 12).map Int.ofNat ∧
    (writes.map Prod.snd).Perm ((List.range 12).map Int.ofNat) :=
  ⟨by decide,(dft_tables_valid 12 (by decide)).2.2.2.2 (by decide) (by decide) (by decide)⟩

end VideoAnalytics.Dft
