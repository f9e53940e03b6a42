import VideoAnalytics.ArgMax
import VideoAnalytics.Library.Shapes
import Mathlib.Algebra.Order.Field.Rat

/-! The slices of the ArgMax layer by the indices of their elements, and what it returns for
each. -/
namespace VideoAnalytics.ArgMax
open Loop Memory Sorting Shapes

/-- The dimensions outside the slices, their length and the dimensions inside: along an axis,
or all dimensions after the first. -/
def Sliced (impl : Impl) (dims outer : List Nat) (dim : Nat) (inner : List Nat) : Prop :=
  match impl.axis with
  | some axisIndex => dims = outer ++ dim :: inner ∧
      (outer.length : Int) = if axisIndex < 0 then axisIndex + dims.length else axisIndex
  | none => outer = dims.take 1 ∧ dim = (dims.drop 1).prod ∧ inner = []

section Slices

variable {impl : Impl} {dims outer inner : List Nat} {dim : Nat}

private theorem Sliced.prod (sliced : Sliced impl dims outer dim inner) :
    dims.prod = outer.prod * dim * inner.prod := by
  unfold Sliced at sliced
  split at sliced
  · rw [sliced.1,List.prod_append,List.prod_cons,Nat.mul_assoc]
  · obtain ⟨rfl,rfl,rfl⟩ := sliced
    rw [List.prod_nil,Nat.mul_one,← List.prod_append,List.take_append_drop]

private theorem Sliced.extents (sliced : Sliced impl dims outer dim inner) (some : 1 ≤ dim) :
    extents impl dims = (dim,inner.prod) := by
  unfold Sliced at sliced
  unfold ArgMax.extents
  cases named : impl.axis with
  | none =>
    rw [named] at sliced
    obtain ⟨-,rfl,rfl⟩ := sliced
    dsimp only
    rw [count_eq]
    rfl
  | some axisIndex =>
    rw [named] at sliced
    obtain ⟨rfl,place⟩ := sliced
    have axis : normalAxis axisIndex (outer ++ dim :: inner).length = outer.length := by
      unfold normalAxis
      omega
    have rest : ((outer ++ dim :: inner).drop outer.length).prod / dim = inner.prod := by
      rw [List.drop_left,List.prod_cons,Nat.mul_div_cancel_left _ some]
    have read : (outer ++ dim :: inner).getD outer.length 0 = dim := by simp
    dsimp only
    rw [axis,count_eq,read,rest]

private theorem Sliced.number (sliced : Sliced impl dims outer dim inner) (some : 1 ≤ dim) :
    count dims 0 dims.length / dim = outer.prod * inner.prod := by
  rw [count_eq,List.drop_zero,sliced.prod,Nat.mul_right_comm,Nat.mul_div_cancel _ some]

/-- An element of a slice by its place along the axis. -/
def element (outer : List Nat) (dim : Nat) (inner index further : List Nat) (j : Nat) : Nat :=
  flat (outer ++ dim :: inner) (index ++ j :: further)

variable {index further : List Nat}

/-- The number of a slice. -/
def sliceOf (outer inner index further : List Nat) : Nat := flat (outer ++ inner) (index ++ further)

private theorem sliceOf_parts (out : Index outer index) (within : Index inner further) :
    sliceOf outer inner index further / inner.prod = flat outer index ∧
      sliceOf outer inner index further % inner.prod = flat inner further := by
  have low := flat_lt within
  unfold sliceOf
  rw [flat_append out]
  exact ⟨cell_row _ low,cell_col _ low⟩

private theorem place_element (out : Index outer index) (within : Index inner further)
    (dim j : Nat) : (sliceOf outer inner index further / inner.prod * dim + j) * inner.prod +
        sliceOf outer inner index further % inner.prod =
      element outer dim inner index further j := by
  obtain ⟨row,place⟩ := sliceOf_parts out within
  unfold element
  rw [row,place,flat_append out,List.prod_cons,flat]
  ring

private theorem sliceOf_lt (out : Index outer index) (within : Index inner further) :
    sliceOf outer inner index further < outer.prod * inner.prod := by
  have low := flat_lt (out.append within)
  rwa [List.prod_append] at low

private theorem sources_elements (out : Index outer index) (within : Index inner further)
    (dim : Nat) : sources dim inner.prod (sliceOf outer inner index further) =
      (List.range dim).map (element outer dim inner index further) := by
  unfold sources
  apply List.map_congr_left
  intro j _
  exact place_element out within dim j

private theorem exists_slice {i : Nat} (low : i < outer.prod * inner.prod) :
    ∃ index further, Index outer index ∧ Index inner further ∧
      sliceOf outer inner index further = i := by
  have some : 0 < inner.prod := Nat.pos_of_lt_mul_left low
  obtain ⟨index,out,row⟩ := exists_index (Nat.div_lt_of_lt_mul (by rwa [Nat.mul_comm] at low))
  obtain ⟨further,within,place⟩ := exists_index (Nat.mod_lt i some)
  refine ⟨index,further,out,within,?_⟩
  unfold sliceOf
  rw [flat_append out,row,place,Nat.div_add_mod']

end Slices

section Order

variable {F : Type} [FloatType F] [FloatNumbers F]

/-- The greatest pairs of value and index of a slice, in descending order. -/
structure Top (values : Nat → F) (dim topK : Nat) (top : List (F × Nat)) : Prop where
  length : top.length = topK
  elements : ∀ pair ∈ top, pair.2 < dim ∧ pair.1 = values pair.2
  descending : top.Pairwise greater
  greatest : ∀ pair ∈ top, ∀ j, j < dim → (values j,j) ∉ top → greater pair (values j,j)

def pairs (values : Nat → F) (dim : Nat) : List (F × Nat) := (List.range dim).map fun j => (values j,j)

omit [FloatType F] [FloatNumbers F] in
private theorem mem_pairs {values : Nat → F} {dim : Nat} {pair : F × Nat} :
    pair ∈ pairs values dim ↔ pair.2 < dim ∧ pair.1 = values pair.2 := by
  unfold pairs
  rw [List.mem_map]
  constructor
  · rintro ⟨j,low,rfl⟩
    exact ⟨List.mem_range.mp low,rfl⟩
  · rintro ⟨low,value⟩
    exact ⟨pair.2,List.mem_range.mpr low,Prod.ext value.symm rfl⟩

omit [FloatType F] [FloatNumbers F] in
private theorem pairs_nodup (values : Nat → F) (dim : Nat) : (pairs values dim).Nodup := by
  apply List.Nodup.map _ List.nodup_range
  intro j k same
  exact (Prod.mk.inj same).2

/-- Pairs of numbers with their own indices are in a strict order. -/
theorem pairs_total {values : Nat → F} {dim : Nat}
    (numbers : ∀ j, j < dim → (values j == values j) = true) :
    StrictTotal greater (pairs values dim) := by
  have number : ∀ pair ∈ pairs values dim, (pair.1 == pair.1) = true := by
    intro pair member
    obtain ⟨low,value⟩ := mem_pairs.mp member
    rw [value]
    exact numbers _ low
  constructor
  · rintro a - (less | ⟨-,index⟩)
    · exact FloatOrder.irrefl _ less
    · exact Nat.lt_irrefl _ index
  · intro a first b second c third above below
    have between := fun x y z => FloatNumbers.numbers (F := F) x y z
    have a_number := number a first
    have b_number := number b second
    have c_number := number c third
    rcases above with above | ⟨unbelow,index⟩
    · rcases below with below | ⟨unabove,-⟩
      · exact .inl (FloatOrder.trans _ _ _ below above)
      · have either := between _ _ _ b_number c_number a_number above
        exact .inl (either.resolve_left unabove)
    · rcases below with below | ⟨unabove,later⟩
      · have either := between _ _ _ c_number a_number b_number below
        exact .inl (either.resolve_right unbelow)
      · refine .inr ⟨?_,later.trans index⟩
        intro less
        rcases between _ _ _ a_number b_number c_number less with first_less | second_less
        · exact unbelow first_less
        · exact unabove second_less
  · intro a first b second different
    by_cases less : a.1 < b.1
    · exact .inr (.inl less)
    by_cases greater : b.1 < a.1
    · exact .inl (.inl greater)
    rcases Nat.lt_trichotomy a.2 b.2 with before | same | after
    · exact .inr (.inr ⟨greater,before⟩)
    · have equal : a.1 = b.1 := by
        rw [(mem_pairs.mp first).2,(mem_pairs.mp second).2,same]
      exact absurd (Prod.ext equal same) different
    · exact .inl (.inr ⟨less,after⟩)

instance : DecidableRel (greater (F := F)) := by
  intro a b
  unfold greater
  infer_instance

/-- Whatever a partial sort does behind the middle, the pairs before it are the greatest. -/
theorem partialSort_top (sort : StdPartialSort (greater (F := F))) {values : Nat → F} {dim topK : Nat}
    (numbers : ∀ j, j < dim → (values j == values j) = true) (fits : topK ≤ dim) :
    Top values dim topK ((sort.sort topK (pairs values dim)).take topK) := by
  have total := pairs_total numbers
  have ordered := insertionSort_strict greater _ total (pairs_nodup values dim)
  have perm := insertionSort_perm greater (pairs values dim)
  have split := List.take_append_drop topK (insertionSort greater (pairs values dim))
  rw [sort.take_eq greater total topK]
  have among : ∀ pair ∈ (insertionSort greater (pairs values dim)).take topK,
      pair ∈ pairs values dim := fun pair member => perm.subset (List.mem_of_mem_take member)
  constructor
  · have length : (insertionSort greater (pairs values dim)).length = dim := by
      rw [perm.length_eq]
      simp [pairs]
    rw [List.length_take,length,Nat.min_eq_left fits]
  · intro pair member
    exact mem_pairs.mp (among pair member)
  · exact ordered.sublist (List.take_sublist topK _)
  · intro pair member j low absent
    have there : (values j,j) ∈ insertionSort greater (pairs values dim) :=
      perm.mem_iff.mpr (mem_pairs.mpr ⟨low,rfl⟩)
    rw [← split,List.mem_append] at there
    rw [← split] at ordered
    exact (List.pairwise_append.mp ordered).2.2 pair member _ (there.resolve_left absent)

end Order

section Results

variable {F : Type} [FloatType F]

/-- What the output holds for a pair of a slice, as the mode demands. -/
def Result (impl : Impl) (outer inner : List Nat) (dst : Memory F) (index further : List Nat) (j : Nat)
    (pair : F × Nat) : Prop :=
  let element := element outer impl.topK inner index further j
  let block := [outer.prod * inner.prod,2,impl.topK]
  let i := sliceOf outer inner index further
  if impl.outMaxVal then
    if impl.axis.isSome then dst element = pair.1
    else dst (flat block [i,0,j]) = ((pair.2 : Int) : F) ∧ dst (flat block [i,1,j]) = pair.1
  else dst element = ((pair.2 : Int) : F)

omit [FloatType F] in
private theorem mapIdx_pairs (src : Memory F) (element : Nat → Nat) (dim : Nat) :
    ((List.range dim).map element).mapIdx (fun j address => (src address,j)) =
      pairs (fun j => src (element j)) dim := by
  apply List.ext_getElem
  · simp [pairs]
  · intro j first second
    simp [pairs]

variable {impl : Impl} (sort : StdPartialSort (greater (F := F))) (src dst : ExtBlob F)
variable {outer inner : List Nat} {dim : Nat}

private theorem execute_eq (sliced : Sliced impl src.dims outer dim inner) (some : 1 ≤ dim) :
    execute impl sort src dst =
      ⟨dst.data.writeAll ((List.range (outer.prod * inner.prod)).flatMap
          (sliceStores impl sort src.data dim inner.prod)),
        (List.range (outer.prod * inner.prod)).flatMap (sources dim inner.prod),
        ((List.range (outer.prod * inner.prod)).flatMap
          (sliceStores impl sort src.data dim inner.prod)).map Prod.fst⟩ := by
  unfold execute
  dsimp only
  rw [sliced.extents some,sliced.number some]
  exact forLoop_executeSlice ..

/-- The stores of all slices go to each element of the output once. -/
theorem stores_tile (sliced : Sliced impl src.dims outer dim inner) :
    Tiles 0 (cells impl (outer.prod * inner.prod))
      (((List.range (outer.prod * inner.prod)).flatMap
        (sliceStores impl sort src.data dim inner.prod)).map Prod.fst) := by
  have single : impl.axis = none → inner.prod = 1 := by
    intro unnamed
    unfold Sliced at sliced
    rw [unnamed] at sliced
    rw [sliced.2.2,List.prod_nil]
  have tile : Tiles 0 (cells impl (outer.prod * inner.prod)) _ := places_tile impl single
  unfold sliceStores
  simp only [List.map_flatMap,assignments_places]
  exact tile

variable {index further : List Nat}

/-- What a pass of a slice has written stays in the output. -/
theorem slice_result (sliced : Sliced impl src.dims outer dim inner) (some : 1 ≤ dim)
    (out : Index outer index) (within : Index inner further) {j : Nat} (low : j < impl.topK) :
    Result impl outer inner (execute impl sort src dst).dst index further j
      ((sortedSlice sort impl.topK src.data
        (sources dim inner.prod (sliceOf outer inner index further))).getD j (((0 : Int) : F),0)) := by
  generalize kept : List.getD _ j (((0 : Int) : F),0) = pair
  have stored : ∀ store ∈ assignments impl inner.prod (sliceOf outer inner index further) j pair,
      (execute impl sort src dst).dst store.1 = store.2 := by
    rintro ⟨place,value⟩ member
    rw [execute_eq sort src dst sliced some]
    apply writeAll_mem _ (stores_tile sort src sliced).nodup
    refine List.mem_flatMap.mpr ⟨_,List.mem_range.mpr (sliceOf_lt out within),
      List.mem_flatMap.mpr ⟨j,List.mem_range.mpr low,?_⟩⟩
    rw [kept]
    exact member
  unfold assignments at stored
  dsimp only at stored
  rw [place_element out within] at stored
  unfold Result
  dsimp only
  split
  · next values =>
    rw [if_pos values] at stored
    split
    · next named =>
      rw [if_pos named] at stored
      exact stored _ List.mem_cons_self
    · next unnamed =>
      rw [if_neg unnamed] at stored
      have first := stored _ List.mem_cons_self
      have second := stored _ (List.mem_cons_of_mem _ List.mem_cons_self)
      have block : ∀ half, flat [outer.prod * inner.prod,2,impl.topK]
          [sliceOf outer inner index further,half,j] =
            2 * sliceOf outer inner index further * impl.topK + half * impl.topK + j := by
        intro half
        simp [flat]
        ring
      rw [block,block,Nat.zero_mul,Nat.add_zero,Nat.one_mul]
      exact ⟨first,second⟩
  · next indices =>
    rw [if_neg indices] at stored
    exact stored _ List.mem_cons_self

variable [FloatNumbers F]

private theorem slice_top (out : Index outer index) (within : Index inner further)
    (fits : impl.topK ≤ dim)
    (numbers : ∀ j, j < dim → (src.data (element outer dim inner index further j) ==
      src.data (element outer dim inner index further j)) = true) :
    ∃ top, Top (fun j => src.data (element outer dim inner index further j)) dim impl.topK top ∧
      ∀ j pair, top[j]? = some pair → j < impl.topK ∧
        (sortedSlice sort impl.topK src.data
          (sources dim inner.prod (sliceOf outer inner index further))).getD j (((0 : Int) : F),0) =
            pair := by
  refine ⟨_,partialSort_top sort numbers fits,?_⟩
  intro j pair read
  obtain ⟨low,-⟩ := List.getElem?_eq_some_iff.mp read
  have before : j < impl.topK := Nat.lt_of_lt_of_le low (List.length_take_le _ _)
  rw [List.getElem?_take_of_lt before] at read
  refine ⟨before,?_⟩
  unfold sortedSlice
  rw [sources_elements out within,mapIdx_pairs,List.getD_eq_getElem?_getD,read]
  rfl

end Results

/-- For each slice the layer writes the top pairs in descending order, as the mode demands; it
reads the elements of the slice along the axis and no other, and the slices together write each
element of the output once. -/
theorem execute_top {F : Type} [FloatType F] [FloatNumbers F] (impl : Impl)
    (sort : StdPartialSort (greater (F := F))) (src dst : ExtBlob F) {outer inner : List Nat} {dim : Nat}
    (sliced : Sliced impl src.dims outer dim inner) (least : 1 ≤ impl.topK) (fits : impl.topK ≤ dim) :
    (execute impl sort src dst).written.Perm
        (List.range (cells impl (outer.prod * inner.prod))) ∧
      (∀ address, address ∉ (execute impl sort src dst).written →
        (execute impl sort src dst).dst address = dst.data address) ∧
      (execute impl sort src dst).reads =
        (List.range (outer.prod * inner.prod)).flatMap (sources dim inner.prod) ∧
      (∀ i, i < outer.prod * inner.prod → ∃ index further, Index outer index ∧ Index inner further ∧
        sliceOf outer inner index further = i) ∧
      ∀ index further, Index outer index → Index inner further →
        sources dim inner.prod (sliceOf outer inner index further) =
          (List.range dim).map (element outer dim inner index further) ∧
        ((∀ j, j < dim → (src.data (element outer dim inner index further j) ==
            src.data (element outer dim inner index further j)) = true) →
          ∃ top, Top (fun j => src.data (element outer dim inner index further j)) dim impl.topK top ∧
            ∀ j pair, top[j]? = some pair →
              Result impl outer inner (execute impl sort src dst).dst index further j pair) := by
  have some : 1 ≤ dim := least.trans fits
  have run := execute_eq sort src dst sliced some
  have tiles := stores_tile sort src sliced
  refine ⟨?_,?_,?_,fun i => exists_slice,?_⟩
  · unfold Tiles at tiles
    rw [← List.range_eq_range'] at tiles
    rw [run]
    exact tiles
  · intro address absent
    rw [run] at absent ⊢
    exact writeAll_other _ absent
  · rw [run]
  · intro index further out within
    refine ⟨sources_elements out within dim,?_⟩
    intro numbers
    obtain ⟨top,greatest,reads⟩ := slice_top sort src out within fits numbers
    refine ⟨top,greatest,?_⟩
    intro j pair read
    obtain ⟨low,same⟩ := reads j pair read
    rw [← same]
    exact slice_result sort src dst sliced some out within low

/-- Slices along the axis in the middle, one of them with two greatest values. -/
def twelve : ExtBlob Rat :=
  ⟨[2,3,2],fun address => [7,1,9,2,8,3,0,6,4,6,2,5].getD address 0⟩

theorem execute_top_middle :
    Sliced ⟨false,2,some (-2)⟩ twelve.dims [2] 3 [2] ∧
      (execute ⟨false,2,some (-2)⟩ (StdPartialSort.insertion _) twelve twelve).written.Perm
        (List.range 8) ∧
      (execute ⟨false,2,some (-2)⟩ (StdPartialSort.insertion _) twelve twelve).reads =
        [0,2,4,1,3,5,6,8,10,7,9,11] ∧
      (List.range 8).map (execute ⟨false,2,some (-2)⟩ (StdPartialSort.insertion _) twelve twelve).dst =
        [1,2,2,1,1,1,2,0] := by
  have sliced : Sliced ⟨false,2,some (-2)⟩ twelve.dims [2] 3 [2] := ⟨rfl,rfl⟩
  obtain ⟨written,-,reads,-⟩ := execute_top ⟨false,2,some (-2)⟩ (StdPartialSort.insertion _) twelve
    twelve sliced (by decide) (by decide)
  exact ⟨sliced,written,reads,by decide +kernel⟩

end VideoAnalytics.ArgMax
