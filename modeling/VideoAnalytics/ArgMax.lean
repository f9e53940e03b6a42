import VideoAnalytics.ExtLayer
import VideoAnalytics.Library.Sorting
import VideoAnalytics.Library.Stores

/-! The ArgMax layer of the CPU extension. The elements that it reads and the places that it
writes are recorded in order. -/
namespace VideoAnalytics.ArgMax
open Loop Memory Sorting

/-- The parameters: the axis is none where the layer names no axis. -/
structure Impl where
  outMaxVal : Bool
  topK : Nat
  axis : Option Int

structure Output (F : Type) where
  dst : Memory F
  reads : List Nat
  written : List Nat

def count (dims : List Nat) (startInd endInd : Nat) : Nat :=
  forLoop (endInd - startInd) (fun i count => count * dims.getD (startInd + i) 0) 1

/-- The axis counted from the first dimension. -/
def normalAxis (axisIndex : Int) (rank : Nat) : Nat :=
  (if axisIndex < 0 then axisIndex + rank else axisIndex).toNat

/-- dim and axis_dist -/
def extents (impl : Impl) (inDims : List Nat) : Nat × Nat :=
  match impl.axis with
  | some axisIndex =>
    let axis := normalAxis axisIndex inDims.length
    let dim := inDims.getD axis 0
    (dim,count inDims axis inDims.length / dim)
  | none => (count inDims 1 inDims.length,1)

section Execute

variable {F : Type} [FloatType F]

/-- std::pair's operator<, with its arguments exchanged by std::greater. -/
def greater (a b : F × Nat) : Prop := b.1 < a.1 ∨ ¬a.1 < b.1 ∧ b.2 < a.2

def put (stores : List (Nat × F)) (output : Output F) : Output F :=
  ⟨output.dst.writeAll stores,output.reads,output.written ++ stores.map Prod.fst⟩

/-- The elements of a slice. -/
def sources (dim axisDist i : Nat) : List Nat :=
  (List.range dim).map fun j => (i / axisDist * dim + j) * axisDist + i % axisDist

/-- What is written for a pair of the sorted slice. -/
def assignments (impl : Impl) (axisDist i j : Nat) (pair : F × Nat) : List (Nat × F) :=
  let value := pair.1
  let index : F := ((pair.2 : Int) : F)
  let place := (i / axisDist * impl.topK + j) * axisDist + i % axisDist
  if impl.outMaxVal then
    if impl.axis.isSome then [(place,value)]
    else [(2 * i * impl.topK + j,index),(2 * i * impl.topK + impl.topK + j,value)]
  else [(place,index)]

def sortedSlice (sort : StdPartialSort (greater (F := F))) (topK : Nat) (src : Memory F)
    (sources : List Nat) : List (F × Nat) :=
  sort.sort topK (sources.mapIdx fun j address => (src address,j))

def executeSlice (impl : Impl) (sort : StdPartialSort (greater (F := F))) (src : Memory F)
    (dim axisDist i : Nat) (output : Output F) : Output F :=
  let srcVector := sortedSlice sort impl.topK src (sources dim axisDist i)
  forLoop impl.topK (fun j output =>
    put (assignments impl axisDist i j (srcVector.getD j (((0 : Int) : F),0))) output)
    ⟨output.dst,output.reads ++ sources dim axisDist i,output.written⟩

def execute (impl : Impl) (sort : StdPartialSort (greater (F := F))) (src dst : ExtBlob F) :
    Output F :=
  let (dim,axisDist) := extents impl src.dims
  let num := count src.dims 0 src.dims.length / dim
  forLoop num (executeSlice impl sort src.data dim axisDist) ⟨dst.data,[],[]⟩

end Execute

theorem count_eq (dims : List Nat) (startInd : Nat) :
    count dims startInd dims.length = (dims.drop startInd).prod := by
  have products : ∀ passes, startInd + passes ≤ dims.length →
      forLoop passes (fun i count => count * dims.getD (startInd + i) 0) 1 =
        ((dims.drop startInd).take passes).prod := by
    intro passes
    induction passes with
    | zero => intro _; rfl
    | succ passes ih =>
      intro within
      have last : passes < (dims.drop startInd).length := by
        rw [List.length_drop]
        omega
      unfold forLoop
      dsimp only
      rw [ih (by omega),List.take_succ_eq_append_getElem last,List.prod_append,List.prod_singleton,
        List.getElem_drop,List.getD_eq_getElem?_getD,List.getElem?_eq_getElem (by omega)]
      rfl
  unfold count
  by_cases within : startInd ≤ dims.length
  · rw [products _ (by omega),List.take_of_length_le (by rw [List.length_drop])]
  · rw [List.drop_of_length_le (by omega),Nat.sub_eq_zero_of_le (by omega)]
    rfl

section Stores

variable {F : Type} [FloatType F] (impl : Impl) (sort : StdPartialSort (greater (F := F)))

/-- What is written for a slice. -/
def sliceStores (src : Memory F) (dim axisDist i : Nat) : List (Nat × F) :=
  (List.range impl.topK).flatMap fun j => assignments impl axisDist i j
    ((sortedSlice sort impl.topK src (sources dim axisDist i)).getD j (((0 : Int) : F),0))

omit [FloatType F] in
private theorem forLoop_put (passes : Nat) (pieces : Nat → List (Nat × F)) (output : Output F) :
    forLoop passes (fun i => put (pieces i)) output =
      put ((List.range passes).flatMap pieces) output := by
  induction passes with
  | zero => simp [forLoop,put,writeAll]
  | succ passes ih =>
    unfold forLoop
    rw [ih,List.range_succ,List.flatMap_append,List.flatMap_singleton]
    unfold put
    simp only [writeAll_append,List.map_append,List.append_assoc]

private theorem executeSlice_eq (src : Memory F) (dim axisDist i : Nat) (output : Output F) :
    executeSlice impl sort src dim axisDist i output =
      put (sliceStores impl sort src dim axisDist i)
        ⟨output.dst,output.reads ++ sources dim axisDist i,output.written⟩ :=
  forLoop_put ..

theorem forLoop_executeSlice (src : Memory F) (dim axisDist num : Nat) (dst : Memory F) :
    forLoop num (executeSlice impl sort src dim axisDist) ⟨dst,[],[]⟩ =
      ⟨dst.writeAll ((List.range num).flatMap (sliceStores impl sort src dim axisDist)),
        (List.range num).flatMap (sources dim axisDist),
        ((List.range num).flatMap (sliceStores impl sort src dim axisDist)).map Prod.fst⟩ := by
  induction num with
  | zero => rfl
  | succ num ih =>
    unfold forLoop
    rw [ih,executeSlice_eq]
    simp only [put,List.range_succ,List.flatMap_append,List.flatMap_singleton,writeAll_append,
      List.map_append]

end Stores

section Places

variable (impl : Impl)

/-- The places that are written for a pair. -/
def places (axisDist i j : Nat) : List Nat :=
  if impl.outMaxVal ∧ impl.axis = none then
    [2 * i * impl.topK + j,2 * i * impl.topK + impl.topK + j]
  else [(i / axisDist * impl.topK + j) * axisDist + i % axisDist]

theorem assignments_places {F : Type} [FloatType F] (axisDist i j : Nat) (pair : F × Nat) :
    (assignments impl axisDist i j pair).map Prod.fst = places impl axisDist i j := by
  unfold assignments places
  cases impl.outMaxVal with
  | false => simp
  | true => cases impl.axis <;> simp

/-- The elements of the output. -/
def cells (num : Nat) : Nat := num * (if impl.outMaxVal ∧ impl.axis = none then 2 * impl.topK else impl.topK)

/-- The slices write each element of the output once. -/
theorem places_tile {axisDist outer : Nat} (single : impl.axis = none → axisDist = 1) :
    Tiles 0 (cells impl (outer * axisDist)) ((List.range (outer * axisDist)).flatMap fun i =>
      (List.range impl.topK).flatMap (places impl axisDist i)) := by
  unfold cells places
  split
  · next both =>
    rw [single both.2,Nat.mul_one]
    apply Tiles.blocks
    intro i _
    have base : i * (2 * impl.topK) = 2 * i * impl.topK := by ring
    apply tiles_of_covers
    · simp [List.length_flatMap,Nat.mul_comm]
    · intro address low high
      rw [Nat.zero_add,base] at low high
      apply List.mem_flatMap.mpr
      by_cases first : address < 2 * i * impl.topK + impl.topK
      · refine ⟨address - 2 * i * impl.topK,List.mem_range.mpr (by omega),?_⟩
        rw [Nat.add_sub_cancel' low]
        exact List.mem_cons_self
      · refine ⟨address - (2 * i * impl.topK + impl.topK),List.mem_range.mpr (by omega),?_⟩
        rw [Nat.add_sub_cancel' (Nat.not_lt.mp first)]
        exact List.mem_cons_of_mem _ List.mem_cons_self
  · apply tiles_of_covers
    · simp [List.length_flatMap]
    · intro address _ low
      have total : outer * axisDist * impl.topK = outer * impl.topK * axisDist := by ring
      rw [Nat.zero_add,total] at low
      have some : 0 < axisDist := Nat.pos_of_lt_mul_left low
      have row : address / axisDist < outer * impl.topK :=
        Nat.div_lt_of_lt_mul (by rwa [Nat.mul_comm])
      have kept : 0 < impl.topK := Nat.pos_of_lt_mul_left row
      have place := Nat.mod_lt address some
      have block : address / axisDist / impl.topK < outer :=
        Nat.div_lt_of_lt_mul (by rwa [Nat.mul_comm])
      refine List.mem_flatMap.mpr ⟨address / axisDist / impl.topK * axisDist + address % axisDist,
        List.mem_range.mpr (cell_within block place),List.mem_flatMap.mpr
          ⟨address / axisDist % impl.topK,List.mem_range.mpr (Nat.mod_lt _ kept),?_⟩⟩
      rw [cell_row _ place,cell_col _ place,Nat.div_add_mod',Nat.div_add_mod']
      exact List.mem_singleton_self _

end Places

end VideoAnalytics.ArgMax
