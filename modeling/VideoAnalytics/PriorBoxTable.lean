import VideoAnalytics.PriorBox
import Mathlib.Algebra.BigOperators.Ring.List
import Mathlib.Data.List.Induction
import Mathlib.Data.Rat.Sqrt
import Mathlib.Tactic.Ring

/-! Whether PriorBox writes as many coordinates as its constructor has announced. -/
namespace VideoAnalytics.PriorBox
open Loop Memory

variable {F : Type}

private theorem sum_upTo (count limit each : Nat) :
    ((List.range count).map fun i => each + if i < limit then 1 else 0).sum =
      count * each + min limit count := by
  induction count with
  | zero => simp
  | succ count ih =>
    rw [List.range_succ,List.map_append,List.sum_append,ih,Nat.succ_mul]
    simp only [List.map_singleton,List.sum_singleton]
    split <;> omega

section Coordinates

variable [FloatType F] (math : Math F) (impl : Impl F) (grid : Grid F)

private theorem pushBox_grows (centerX centerY boxWidth boxHeight : F) (table : Cursor F) :
    Pushes table (pushBox grid centerX centerY boxWidth boxHeight table) 4 :=
  (((push_pushes table _).trans (push_pushes _ _)).trans (push_pushes _ _)).trans (push_pushes _ _)

def ratioBoxes : Nat := impl.aspectRatios.countP fun ar => !math.tiny (ar - ((1 : Int) : F))

private theorem foldl_grows (ratios : List F) (box : F → Cursor F → Cursor F)
    (grows : ∀ ar table, Pushes table (box ar table) 4) (table : Cursor F) :
    Pushes table (ratios.foldl (fun table ar =>
      if math.tiny (ar - ((1 : Int) : F)) then table else box ar table) table)
        (4 * ratios.countP fun ar => !math.tiny (ar - ((1 : Int) : F))) := by
  induction ratios generalizing table with
  | nil => exact Grows.refl _
  | cons ar ratios ih =>
    rw [List.foldl_cons,List.countP_cons]
    by_cases near : math.tiny (ar - ((1 : Int) : F)) = true
    · simpa [near] using ih table
    · have more := (grows ar table).trans (ih (box ar table))
      simp only [near,Bool.false_eq_true,if_false,Bool.not_false,if_true]
      rwa [Nat.mul_add,Nat.add_comm]

private theorem pushSize_grows (h w msIdx : Nat) (table : Cursor F) :
    Pushes table (pushSize math impl grid h w msIdx table)
      (4 * (1 + ratioBoxes math impl + if msIdx < impl.maxSizes.length then 1 else 0)) := by
  have square := pushBox_grows grid (center impl grid h w).1 (center impl grid h w).2
    (impl.minSizes.getD msIdx ((0 : Int) : F)) (impl.minSizes.getD msIdx ((0 : Int) : F)) table
  have ratios := foldl_grows math impl.aspectRatios fun ar =>
    pushBox grid (center impl grid h w).1 (center impl grid h w).2
      (impl.minSizes.getD msIdx ((0 : Int) : F) * math.sqrt ar)
      (impl.minSizes.getD msIdx ((0 : Int) : F) / math.sqrt ar)
  have boxes := ratios fun ar => pushBox_grows grid _ _ _ _
  unfold pushSize
  dsimp only
  split
  · have total : 4 * (1 + ratioBoxes math impl + 1) = 4 + 4 + 4 * ratioBoxes math impl := by omega
    rw [total]
    exact (square.trans (pushBox_grows grid _ _ _ _ _)).trans (boxes _)
  · have total : 4 * (1 + ratioBoxes math impl + 0) = 4 + 4 * ratioBoxes math impl := by omega
    rw [total]
    exact square.trans (boxes _)

def priorsWritten : Nat :=
  impl.minSizes.length * (1 + ratioBoxes math impl) +
    min impl.maxSizes.length impl.minSizes.length

private theorem pushCoordinates_written (dst : Memory F) :
    (pushCoordinates math impl grid dst).written =
      List.range (grid.h * grid.w * priorsWritten math impl * 4) := by
  have place (h w : Nat) (table : Cursor F) : Pushes table
      (forLoop impl.minSizes.length (pushSize math impl grid h w) table)
      (4 * priorsWritten math impl) := by
    have sizes := forLoop_grows impl.minSizes.length _ (pushSize_grows math impl grid h w) table
    rwa [List.sum_map_mul_left,sum_upTo] at sizes
  have row (h : Nat) := forLoop_grows_evenly grid.w (place h)
  have all := (forLoop_grows_evenly grid.h row ⟨dst,0,[]⟩).recorded
  unfold pushCoordinates
  rw [all,List.nil_append,← List.range_eq_range']
  congr 1
  ring

private theorem clipCoordinates_written (dim : Nat) (dst : Memory F) :
    (clipCoordinates dim dst).2 = List.range dim := by
  have records := forLoop_records 0 dim []
  simp only [Nat.zero_add,List.nil_append,← List.range_eq_range'] at records
  unfold clipCoordinates
  rw [forLoop_map Prod.snd dim _ (fun d log => log ++ [d])]
  · exact records
  · intro d clipped
    rfl

private theorem writeVariances_written (channelSize : Nat) (dst : Memory F) :
    (writeVariances impl grid channelSize dst).2 = List.range' channelSize
      (if impl.variance.length = 1 then channelSize
        else grid.h * grid.w * impl.numPriors * 4) := by
  unfold writeVariances
  dsimp only
  split
  · rw [forLoop_map Prod.snd channelSize _ (fun i log => log ++ [channelSize + i])]
    · exact (forLoop_records channelSize channelSize []).trans (List.nil_append _)
    · intro i state
      rfl
  · have values := fun (_ : Nat) => forLoop_grows_evenly 4
      (fun j (state : (Memory F × List Nat) × Nat) => (⟨rfl,rfl⟩ :
        Grows (fun state => channelSize + state.2) (fun state => state.1.2) state
          ((state.1.1.write (channelSize + state.2) (impl.variance.getD j ((0 : Int) : F)),
            state.1.2 ++ [channelSize + state.2]),state.2 + 1) 1))
    have priors := fun (_ : Nat) => forLoop_grows_evenly impl.numPriors values
    have row := fun (_ : Nat) => forLoop_grows_evenly grid.w priors
    have all := (forLoop_grows_evenly grid.h row ((dst,[]),0)).recorded
    rw [all,List.nil_append]
    congr 1
    ring

private theorem writeTable_clipped (channelSize : Nat) (dst : Memory F) (clip : impl.clip = true) :
    (writeTable math impl grid channelSize dst).clipped =
      List.range (grid.h * grid.w * impl.numPriors * 4) := by
  unfold writeTable
  dsimp only
  rw [if_pos clip]
  exact clipCoordinates_written _ _

private theorem writeTable_variances (dst : Memory F) :
    (writeTable math impl grid (grid.h * grid.w * impl.numPriors * 4) dst).variances =
      List.range' (grid.h * grid.w * impl.numPriors * 4)
        (grid.h * grid.w * impl.numPriors * 4) := by
  have written := writeVariances_written impl grid (grid.h * grid.w * impl.numPriors * 4)
  rw [ite_self] at written
  exact written _

end Coordinates

section Constructed

variable [FloatType F] (math : Math F)

/-- An aspect ratio that the constructor takes, as none before it was as large. -/
def NewRatio (flip : Bool) (aspectRatio : List F) (ratio : F) : Prop :=
  ∃ before after, aspectRatio = before ++ ratio :: after ∧
    (aspectRatiosOf math flip before).any (fun other => math.tiny (ratio - other)) = false

private theorem newRatio_append (flip : Bool) (aspectRatio : List F) (last ratio : F) :
    NewRatio math flip (aspectRatio ++ [last]) ratio ↔
      NewRatio math flip aspectRatio ratio ∨ (ratio = last ∧
        (aspectRatiosOf math flip aspectRatio).any (fun other => math.tiny (last - other)) = false) := by
  constructor
  · intro new
    obtain ⟨before,after,same,fresh⟩ := new
    rcases List.eq_nil_or_concat after with rfl | ⟨rest,final,rfl⟩
    · obtain ⟨rfl,equal⟩ := List.append_inj' same rfl
      obtain rfl := List.head_eq_of_cons_eq equal
      exact .inr ⟨rfl,fresh⟩
    · rw [List.concat_eq_append,← List.cons_append,← List.append_assoc] at same
      obtain ⟨rfl,-⟩ := List.append_inj' same rfl
      exact .inl ⟨before,rest,rfl,fresh⟩
  · intro new
    rcases new with ⟨before,after,rfl,fresh⟩ | ⟨rfl,fresh⟩
    · exact ⟨before,after ++ [last],by simp,fresh⟩
    · exact ⟨aspectRatio,[],rfl,fresh⟩

/-- Whether the flipped ratios that the constructor adds all get a box. -/
def FlippedApart (flip : Bool) (aspectRatio : List F) : Prop :=
  flip → ∀ ratio, NewRatio math flip aspectRatio ratio →
    math.tiny (flipped math ratio - ((1 : Int) : F)) = false

/-- The first aspect ratio is one; all others get a box unless a flipped one is near
to one. -/
theorem aspectRatiosOf_apart (flip : Bool) (aspectRatio : List F) :
    ∃ others, aspectRatiosOf math flip aspectRatio = ((1 : Int) : F) :: others ∧
      ((∀ ar ∈ others, math.tiny (ar - ((1 : Int) : F)) = false) ↔
        FlippedApart math flip aspectRatio) := by
  induction aspectRatio using List.reverseRecOn with
  | nil =>
    refine ⟨[],rfl,?_⟩
    simp [FlippedApart,NewRatio]
  | append_singleton aspectRatio last ih =>
    obtain ⟨others,ratios,apart⟩ := ih
    have step : aspectRatiosOf math flip (aspectRatio ++ [last]) =
        addRatio math flip (aspectRatiosOf math flip aspectRatio) last := by
      unfold aspectRatiosOf
      rw [List.foldl_append]
      rfl
    unfold FlippedApart at apart ⊢
    simp only [newRatio_append]
    rw [step]
    unfold addRatio
    split
    · next known =>
      refine ⟨others,ratios,?_⟩
      rw [apart]
      simp [known]
    · next fresh =>
      rw [Bool.not_eq_true] at fresh
      have head : math.tiny (last - ((1 : Int) : F)) = false := by
        rw [ratios,List.any_cons,Bool.or_eq_false_iff] at fresh
        exact fresh.1
      cases flip with
      | false =>
        refine ⟨others ++ [last],by simp [ratios],?_⟩
        simp only [Bool.false_eq_true,false_implies,iff_true] at apart ⊢
        simpa [or_imp,forall_and,head] using apart
      | true =>
        refine ⟨others ++ [last,flipped math last],by simp [ratios],?_⟩
        simp only [true_implies] at apart ⊢
        simp [or_imp,forall_and,head,fresh,apart]

private theorem accepted_impl {insData outData : Nat} {params : Params F} {impl : Impl F}
    (accepted : PriorBoxImpl math insData outData params = .ok impl) :
    ∃ variance, varianceOf math params.variance = .ok variance ∧
      impl = ⟨params.offset,params.step,params.minSize,params.maxSize,params.clip,
        aspectRatiosOf math params.flip params.aspectRatio,variance,
        (aspectRatiosOf math params.flip params.aspectRatio).length * params.minSize.length +
          params.maxSize.length⟩ := by
  have counted (initial : Nat) :
      forLoop params.maxSize.length (fun _ numPriors => numPriors + 1) initial =
        initial + params.maxSize.length := by
    induction params.maxSize.length with
    | zero => rfl
    | succ count ih =>
      unfold forLoop
      rw [ih]
      rfl
  unfold PriorBoxImpl at accepted
  split at accepted
  · simp at accepted
  · cases checked : varianceOf math params.variance with
    | error message =>
      rw [checked] at accepted
      cases accepted
    | ok variance =>
      dsimp only at accepted
      rw [checked,counted] at accepted
      exact ⟨variance,rfl,(Except.ok.inj accepted).symm⟩

private theorem boxes_eq_iff {boxes ratios sizes squares : Nat} (few : boxes ≤ ratios) :
    sizes * (1 + boxes) + min squares sizes = (ratios + 1) * sizes + squares ↔
      squares ≤ sizes ∧ (sizes = 0 ∨ boxes = ratios) := by
  have fewer := Nat.mul_le_mul_left sizes few
  have written : sizes * (1 + boxes) = sizes + sizes * boxes := by ring
  have announced : (ratios + 1) * sizes = sizes + sizes * ratios := by ring
  have same : sizes * boxes = sizes * ratios ↔ boxes = ratios ∨ sizes = 0 := mul_eq_mul_left_iff
  rw [written,announced,or_comm,← same]
  omega

private theorem written_eq_announced {insData outData : Nat} {params : Params F} {impl : Impl F}
    (accepted : PriorBoxImpl math insData outData params = .ok impl) :
    priorsWritten math impl = impl.numPriors ↔ params.maxSize.length ≤ params.minSize.length ∧
      (params.minSize = [] ∨ FlippedApart math params.flip params.aspectRatio) := by
  obtain ⟨variance,-,rfl⟩ := accepted_impl math accepted
  obtain ⟨others,ratios,apart⟩ := aspectRatiosOf_apart math params.flip params.aspectRatio
  rw [← apart]
  have few := List.countP_le_length (p := fun ar => !math.tiny (ar - ((1 : Int) : F))) (l := others)
  have every := List.countP_eq_length (p := fun ar => !math.tiny (ar - ((1 : Int) : F))) (l := others)
  simp only [Bool.not_eq_true'] at every
  rw [← every]
  unfold priorsWritten ratioBoxes
  dsimp only
  rw [ratios,List.countP_cons,math.self_tiny,List.length_cons]
  simp only [Bool.not_true,Bool.false_eq_true,if_false,Nat.add_zero]
  rw [boxes_eq_iff few,List.length_eq_zero_iff]

end Constructed

section Announced

variable [FloatType F] (math : Math F)

/-- How many coordinates the constructor announces for a feature map. -/
def announced (impl : Impl F) (data : ExtBlob F) : Nat :=
  data.dim 2 * data.dim 3 * impl.numPriors * 4

def rowLength (dst : ExtBlob F) : Nat := dst.dim 2 * if dst.dims.length = 3 then 1 else dst.dim 3

/-- The announced coordinates are written one behind the other, those are clipped, and
the variances follow them. -/
def WritesAnnounced (impl : Impl F) (data image dst : ExtBlob F) : Prop :=
  ∃ result, execute math impl [data,image] [dst] = .ok result ∧
    result.coordinates = List.range (announced impl data) ∧
    (impl.clip → result.clipped = result.coordinates) ∧
    result.variances = List.range' result.coordinates.length (announced impl data)

private theorem execute_rows (impl : Impl F) (data image dst : ExtBlob F)
    (rows : rowLength dst = announced impl data) :
    execute math impl [data,image] [dst] =
      .ok (writeTable math impl (gridOf impl data image) (announced impl data) dst.data) := by
  rw [← rows]
  rfl

/-- The table is as announced if and only if no max_size lacks a min_size and no flipped
aspect ratio is taken for the ratio one. -/
theorem table_announced_iff {insData outData : Nat} {params : Params F} {impl : Impl F}
    (data image dst : ExtBlob F) (accepted : PriorBoxImpl math insData outData params = .ok impl)
    (height : 1 ≤ data.dim 2) (width : 1 ≤ data.dim 3)
    (rows : rowLength dst = announced impl data) :
    WritesAnnounced math impl data image dst ↔ params.maxSize.length ≤ params.minSize.length ∧
      (params.minSize = [] ∨ FlippedApart math params.flip params.aspectRatio) := by
  rw [← written_eq_announced math accepted]
  have places : data.dim 2 * data.dim 3 ≠ 0 := Nat.mul_ne_zero (by omega) (by omega)
  have same : data.dim 2 * data.dim 3 * priorsWritten math impl * 4 = announced impl data ↔
      priorsWritten math impl = impl.numPriors := by
    unfold announced
    rw [Nat.mul_left_inj (by decide),Nat.mul_right_inj places]
  have coordinates (channelSize : Nat) :
      (writeTable math impl (gridOf impl data image) channelSize dst.data).coordinates =
        List.range (data.dim 2 * data.dim 3 * priorsWritten math impl * 4) :=
    pushCoordinates_written math impl (gridOf impl data image) dst.data
  unfold WritesAnnounced
  rw [← same,execute_rows math impl data image dst rows]
  constructor
  · intro announces
    obtain ⟨result,executed,all,-⟩ := announces
    obtain rfl := Except.ok.inj executed
    have equal := congrArg List.length ((coordinates _).symm.trans all)
    rwa [List.length_range,List.length_range] at equal
  · intro equal
    rw [equal] at coordinates
    refine ⟨_,rfl,coordinates _,?_,?_⟩
    · intro clip
      rw [coordinates]
      exact writeTable_clipped math impl _ _ _ clip
    · rw [coordinates,List.length_range]
      exact writeTable_variances math impl _ _

end Announced

def ratMath : Math Rat where
  sqrt := Rat.sqrt
  million := 1000000
  tenth := 1 / 10
  tiny value := decide (|value| < 1 / 1000000)
  beyond value := decide (1 / 1000000 < |value|)
  self_tiny := by decide +kernel

def oneSize (maxSize : List Rat) : Params Rat where
  offset := 1 / 2
  step := 16
  minSize := [1]
  maxSize
  flip := true
  clip := true
  aspectRatio := [4]
  variance := []

def onePlace (dims : List Nat) : ExtBlob Rat := ⟨dims,fun _ => 7⟩

theorem table_announced_flipped : WritesAnnounced ratMath
    ⟨1 / 2,16,[1],[4],true,[1,4,1 / 4],[1 / 10],4⟩ (onePlace [1,1,1,1]) (onePlace [1,3,8,8])
    (onePlace [1,2,16]) := by
  have accepted : PriorBoxImpl ratMath 2 1 (oneSize [4]) =
      .ok ⟨1 / 2,16,[1],[4],true,[1,4,1 / 4],[1 / 10],4⟩ := by decide +kernel
  apply (table_announced_iff ratMath _ _ _ accepted (by decide) (by decide) (by decide)).mpr
  refine ⟨by decide,.inr ?_⟩
  intro _ ratio new
  obtain ⟨before,after,same,-⟩ := new
  have four : ratio ∈ [(4 : Rat)] := by
    rw [show [(4 : Rat)] = before ++ ratio :: after from same]
    simp
  obtain rfl := List.mem_singleton.mp four
  decide +kernel

/-- Two max_sizes and one min_size announce a box more than is written. -/
theorem table_not_announced : ∃ impl, PriorBoxImpl ratMath 2 1 (oneSize [4,9]) = .ok impl ∧
    rowLength (onePlace [1,2,20]) = announced impl (onePlace [1,1,1,1]) ∧
    ¬WritesAnnounced ratMath impl (onePlace [1,1,1,1]) (onePlace [1,3,8,8])
      (onePlace [1,2,20]) := by
  refine ⟨⟨1 / 2,16,[1],[4,9],true,[1,4,1 / 4],[1 / 10],5⟩,by decide +kernel,by decide,?_⟩
  intro announces
  obtain ⟨result,executed,coordinates,-⟩ := announces
  obtain rfl := Except.ok.inj executed
  exact absurd (congrArg List.length coordinates) (by decide +kernel)

end VideoAnalytics.PriorBox
