import VideoAnalytics.ExtLayer
import VideoAnalytics.Library.Reduction
import VideoAnalytics.Library.Stores
import Mathlib.Algebra.BigOperators.Field
import Mathlib.Tactic.NormNum

/-! The MVN layer of the CPU extension: each group of elements, an image or a channel of one,
gets its mean subtracted and is then divided by its deviation, in parallel loops over the
channels. In exact arithmetic. -/
namespace VideoAnalytics.Mvn
open Loop Memory InPlace ParallelLoop

structure MVNImpl (F : Type) where
  acrossChannels : Bool
  normalizeVariance : Bool
  eps : F

/-- What a pass over the images adds up of each group, makes of the mean of that, and makes
of each element by it. -/
structure Pass (F : Type) where
  term : F → F
  finish : F → F
  rewrite : F → F → F

/-- The threads' shares of the channels for a reduction, and the orders of the turns. -/
structure Schedule where
  shares : List (List Nat)
  reduction : List Nat
  channels : List Nat

variable {F : Type} [Field F]

section Image

variable (C H W : Nat)

def channel (b c : Nat) : List Nat :=
  (List.range H).flatMap fun h => (List.range W).map fun w => element C H W b c h w

/-- The parallel loop over the channels that each have their own sum. -/
def eachChannel (pass : Pass F) (b : Nat) : Region F F where
  count := C
  gathered := channel C H W b
  cells := channel C H W b
  first := 0
  gather sum value := sum + pass.term value
  finish sum := pass.finish (sum / ((H * W : Nat) : F))
  rewrite := pass.rewrite

/-- The parallel loop over the channels behind a reduction over all of them. -/
def allChannels (pass : Pass F) (b : Nat) (sum : F) : Region F F where
  count := C
  gathered _ := []
  cells := channel C H W b
  first := sum
  gather sum _ := sum
  finish sum := pass.finish (sum / ((C * H * W : Nat) : F))
  rewrite := pass.rewrite

def imagePass (acrossChannels : Bool) (pass : Pass F) (src dst b : Nat) (schedule : Schedule)
    (memory : Memory F) : Except Refused (Memory F) :=
  if acrossChannels then
    if schedule.shares.flatten.Perm (List.range C) then do
      let sum ← Reduction.reduce (fun cell => pass.term (memory (src + cell)))
        (schedule.shares.map fun share => share.flatMap (channel C H W b)) schedule.reduction 0
      run (allChannels C H W pass b sum) src dst schedule.channels memory
    else .error .schedule
  else run (eachChannel C H W pass b) src dst schedule.channels memory

end Image

def meanPass : Pass F where
  term value := value
  finish mean := mean
  rewrite mean value := value - mean

variable (sqrt : F → F)

/-- The quotient by 0, which a field has and the code does not, is left to those that are
sure of the divisor. -/
def variancePass (eps : F) : Pass F where
  term value := value ^ 2
  finish variance := sqrt variance + eps
  rewrite variance value := value / variance

/-- The variances are computed behind the mean of all images. -/
def execute (layer : MVNImpl F) (dims : List Nat) (src dst : Nat) (means variances : Nat → Schedule)
    (memory : Memory F) : Except Refused (Memory F) := do
  let N := dims.getD 0 1
  let C := dims.getD 1 1
  let H := dims.getD 2 1
  let W := dims.getD 3 1
  let memory ← tryLoop N (fun b => imagePass C H W layer.acrossChannels meanPass src dst b (means b))
    memory
  if layer.normalizeVariance then
    tryLoop N (fun b => imagePass C H W layer.acrossChannels (variancePass sqrt layer.eps) dst dst b
      (variances b)) memory
  else .ok memory

/-- The mean of what a pass adds up over a group of so many elements. -/
def Pass.mean (pass : Pass F) (size : Nat) (x : Nat → F) (group : Nat) : F :=
  (∑ i ∈ Finset.range size, pass.term (x (group * size + i))) / (size : F)

def Pass.image (pass : Pass F) (size : Nat) (x : Nat → F) (cell : Nat) : F :=
  pass.rewrite (pass.finish (pass.mean size x (cell / size))) (x cell)

/-- What the elements of a group are divided by. -/
def deviation (eps : F) (size : Nat) (x : Nat → F) (group : Nat) : F :=
  (variancePass sqrt eps).finish ((variancePass sqrt eps).mean size (meanPass.image size x) group)

/-- What the layer makes of its input. -/
def normalized (layer : MVNImpl F) (size : Nat) (x : Nat → F) : Nat → F :=
  if layer.normalizeVariance then (variancePass sqrt layer.eps).image size (meanPass.image size x)
  else meanPass.image size x

/-- The elements of a group. -/
def groupSize (layer : MVNImpl F) (dims : List Nat) : Nat :=
  if layer.acrossChannels then dims.getD 1 1 * (dims.getD 2 1 * dims.getD 3 1)
  else dims.getD 2 1 * dims.getD 3 1

section Channels

variable {N C H W : Nat}

private theorem channel_eq (C H W b c : Nat) :
    channel C H W b c = List.range' ((b * C + c) * (H * W)) (H * W) := by
  unfold channel
  simp only [element_eq]
  generalize (b * C + c) * (H * W) = base
  induction H with
  | zero => simp
  | succ H ih =>
    rw [List.range_succ,List.flatMap_append,ih,List.flatMap_singleton,Nat.succ_mul,
      ← List.range'_append_1]
    congr 1
    rw [List.range'_eq_map_range]
    simp only [Nat.add_assoc]

private theorem mem_channel (some : 0 < H * W) {b c cell : Nat} :
    cell ∈ channel C H W b c ↔ cell / (H * W) = b * C + c := by
  rw [channel_eq,List.mem_range'_1,Nat.div_eq_iff some]
  omega

private theorem mem_channels {b cell : Nat} (low : cell < N * (C * (H * W))) :
    (∃ c < C, cell ∈ channel C H W b c) ↔ cell / (C * (H * W)) = b := by
  have all : 0 < C * (H * W) := Nat.pos_of_lt_mul_left low
  have some : 0 < H * W := Nat.pos_of_lt_mul_left (show 0 < C * (H * W) from all)
  have row : 0 < C := Nat.pos_of_mul_pos_right all
  rw [Nat.mul_comm C,← Nat.div_div_eq_div_mul]
  constructor
  · rintro ⟨c,below,member⟩
    rw [(mem_channel some).mp member,cell_row _ below]
  · rintro rfl
    exact ⟨cell / (H * W) % C,Nat.mod_lt _ row,(mem_channel some).mpr (Nat.div_add_mod' ..).symm⟩

omit [Field F] in
/-- The channels of an image are as separate as a parallel loop needs them. -/
theorem channels_separate (region : Region F F) {src dst b : Nat} (low : b < N)
    (placed : Placed src dst (N * (C * (H * W)))) (count : region.count = C)
    (cells : region.cells = channel C H W b)
    (own : ∀ i < C, region.gathered i ⊆ channel C H W b i) :
    Separate region src dst (N * (C * (H * W))) where
  apart i j cell below under first second := by
    rw [cells] at first second
    have some : 0 < H * W := by
      rw [channel_eq,List.mem_range'_1] at first
      omega
    have left := (mem_channel some).mp first
    have right := (mem_channel some).mp second
    omega
  once i below := by
    rw [cells,channel_eq]
    exact List.nodup_range'
  own i below := by
    rw [cells]
    exact own i (count ▸ below)
  within i below cell member := by
    rw [cells,channel_eq,List.mem_range'_1] at member
    rw [count] at below
    have last := Nat.mul_le_mul_right (H * W) (Nat.succ_le_of_lt (cell_within low below))
    calc cell < (b * C + i) * (H * W) + H * W := member.2
      _ = (b * C + i + 1) * (H * W) := by ring
      _ ≤ N * C * (H * W) := last
      _ = N * (C * (H * W)) := by ring
  placed := placed

end Channels

section Passes

variable {N C H W : Nat} {pass : Pass F} {src dst b : Nat} {before after : Memory F}

private theorem eachChannel_partly {schedule : List Nat} (low : b < N)
    (placed : Placed src dst (N * (C * (H * W))))
    (ran : run (eachChannel C H W pass b) src dst schedule before = .ok after) :
    Partly src dst (N * (C * (H * W))) (pass.image (H * W)) before after
      fun cell => cell / (C * (H * W)) = b := by
  have separate := channels_separate (eachChannel C H W pass b) low placed rfl rfl
    fun _ _ => List.Subset.refl _
  have right (c : Nat) (below : c < C) (cell : Nat) (member : cell ∈ channel C H W b c) :
      image (eachChannel C H W pass b) src before c cell =
        pass.image (H * W) (before.offset src) cell := by
    have some : 0 < H * W := by
      rw [channel_eq,List.mem_range'_1] at member
      omega
    have sums := Reduction.foldl_add (fun cell => pass.term (before.offset src cell))
      (channel C H W b c) 0
    rw [channel_eq,Reduction.sum_range',zero_add,← channel_eq] at sums
    unfold Pass.image Pass.mean
    rw [(mem_channel some).mp member,← sums]
    rfl
  apply (run_rewrites separate ran right).congr
  intro cell below
  exact mem_channels below

private theorem allChannels_partly {schedule : List Nat} {sum : F} (low : b < N)
    (placed : Placed src dst (N * (C * (H * W))))
    (total : sum = ∑ i ∈ Finset.range (C * (H * W)),
      pass.term (before (src + (b * (C * (H * W)) + i))))
    (ran : run (allChannels C H W pass b sum) src dst schedule before = .ok after) :
    Partly src dst (N * (C * (H * W))) (pass.image (C * (H * W))) before after
      fun cell => cell / (C * (H * W)) = b := by
  have separate := channels_separate (allChannels C H W pass b sum) low placed rfl rfl
    fun _ _ => List.nil_subset _
  have right (c : Nat) (below : c < C) (cell : Nat) (member : cell ∈ channel C H W b c) :
      image (allChannels C H W pass b sum) src before c cell =
        pass.image (C * (H * W)) (before.offset src) cell := by
    have within := separate.within c below cell member
    unfold Pass.image Pass.mean
    rw [(mem_channels within).mp ⟨c,below,member⟩]
    simp only [offset_apply]
    rw [← total,← Nat.mul_assoc]
    rfl
  apply (run_rewrites separate ran right).congr
  intro cell below
  exact mem_channels below

/-- What a reduction over shares of the channels of an image adds up. -/
theorem reduce_image {shares : List (List Nat)} {schedule : List Nat} {value : Nat → F} {sum : F}
    (split : shares.flatten.Perm (List.range C))
    (ran : Reduction.reduce value (shares.map fun share => share.flatMap (channel C H W b)) schedule 0 =
      .ok sum) : sum = ∑ i ∈ Finset.range (C * (H * W)), value (b * (C * (H * W)) + i) := by
  have tiles : Tiles (b * (C * (H * W))) (C * (H * W))
      ((List.range C).flatMap (channel C H W b)) := by
    apply Tiles.blocks
    intro c _
    rw [channel_eq,Nat.add_mul,Nat.mul_assoc]
    exact List.Perm.refl _
  have shared : (shares.map fun share => share.flatMap (channel C H W b)).flatten =
      shares.flatten.flatMap (channel C H W b) := by
    conv_rhs => rw [← List.flatMap_id,List.flatMap_assoc]
    exact List.flatMap_def.symm
  have places := (split.flatMap_right (channel C H W b)).trans tiles
  rw [Reduction.reduce_sum ran,zero_add,shared,(places.map value).sum_eq,Reduction.sum_range']

private theorem imagePass_partly {acrossChannels : Bool} {schedule : Schedule} (low : b < N)
    (placed : Placed src dst (N * (C * (H * W))))
    (ran : imagePass C H W acrossChannels pass src dst b schedule before = .ok after) :
    Partly src dst (N * (C * (H * W)))
      (pass.image (if acrossChannels then C * (H * W) else H * W)) before after
      fun cell => cell / (C * (H * W)) = b := by
  unfold imagePass at ran
  cases acrossChannels with
  | false => exact eachChannel_partly low placed ran
  | true =>
    rw [if_pos rfl] at ran ⊢
    split_ifs at ran with split
    obtain ⟨sum,reduced,ran⟩ := bind_passed ran
    exact allChannels_partly low placed (reduce_image split reduced) ran

private theorem image_local (pass : Pass F) (size : Nat) : Local size (pass.image size) := by
  intro x y cell same
  have sums : ∑ i ∈ Finset.range size, pass.term (x (cell / size * size + i)) =
      ∑ i ∈ Finset.range size, pass.term (y (cell / size * size + i)) := by
    apply Finset.sum_congr rfl
    intro i low
    rw [same _ (cell_row _ (Finset.mem_range.mp low))]
  unfold Pass.image Pass.mean
  rw [sums,same cell rfl]

private theorem group_local (C H W : Nat) (acrossChannels : Bool) (pass : Pass F) :
    Local (C * (H * W)) (pass.image (if acrossChannels then C * (H * W) else H * W)) := by
  cases acrossChannels with
  | true => exact image_local pass _
  | false => exact (image_local pass (H * W)).wider C

/-- A pass over all images, whatever the orders. -/
theorem images_rewrite {acrossChannels : Bool} {schedules : Nat → Schedule}
    (placed : Placed src dst (N * (C * (H * W))))
    (ran : tryLoop N (fun b => imagePass C H W acrossChannels pass src dst b (schedules b)) before =
      .ok after) :
    Rewrites src dst (N * (C * (H * W)))
      (pass.image (if acrossChannels then C * (H * W) else H * W)) before after := by
  apply rewrites_blocks placed (group_local C H W acrossChannels pass) ran
  intro b memory next low ran
  exact imagePass_partly low placed ran

private theorem exists_imagePass (acrossChannels : Bool) (pass : Pass F) (src dst b : Nat)
    (memory : Memory F) :
    ∃ schedule after, imagePass C H W acrossChannels pass src dst b schedule memory = .ok after := by
  cases acrossChannels with
  | false =>
    obtain ⟨channels,after,ran⟩ := exists_run (eachChannel C H W pass b) src dst memory
    exact ⟨⟨[],[],channels⟩,after,ran⟩
  | true =>
    obtain ⟨reduction,sum,reduced⟩ := Reduction.exists_reduce
      (fun cell => pass.term (memory (src + cell)))
      ([List.range C].map fun share => share.flatMap (channel C H W b)) 0
    obtain ⟨channels,after,ran⟩ := exists_run (allChannels C H W pass b sum) src dst memory
    refine ⟨⟨[List.range C],reduction,channels⟩,after,?_⟩
    unfold imagePass
    rw [if_pos rfl,if_pos (by simp),reduced]
    exact ran

end Passes

section Groups

variable [CharZero F]

private theorem mean_sum (size : Nat) (x : Nat → F) (group : Nat) :
    ∑ i ∈ Finset.range size, meanPass.image size x (group * size + i) = 0 := by
  by_cases none : size = 0
  · simp [none]
  · have terms : ∑ i ∈ Finset.range size, meanPass.image size x (group * size + i) =
        ∑ i ∈ Finset.range size, (x (group * size + i) - meanPass.mean size x group) := by
      apply Finset.sum_congr rfl
      intro i low
      unfold Pass.image
      rw [cell_row _ (Finset.mem_range.mp low)]
      rfl
    have cast : (size : F) ≠ 0 := Nat.cast_ne_zero.mpr none
    rw [terms,Finset.sum_sub_distrib,Finset.sum_const,Finset.card_range,nsmul_eq_mul]
    unfold Pass.mean
    rw [mul_div_cancel₀ _ cast]
    exact sub_self _

/-- The elements of a group add up to nothing behind the layer. -/
theorem normalized_sum (layer : MVNImpl F) (size : Nat) (x : Nat → F) (group : Nat) :
    ∑ i ∈ Finset.range size, normalized sqrt layer size x (group * size + i) = 0 := by
  unfold normalized
  split_ifs with normalizes
  · have terms : ∑ i ∈ Finset.range size,
        (variancePass sqrt layer.eps).image size (meanPass.image size x) (group * size + i) =
        ∑ i ∈ Finset.range size, meanPass.image size x (group * size + i) /
          deviation sqrt layer.eps size x group := by
      apply Finset.sum_congr rfl
      intro i low
      unfold Pass.image
      rw [cell_row _ (Finset.mem_range.mp low)]
      rfl
    rw [terms,← Finset.sum_div,mean_sum,zero_div]
  · exact mean_sum size x group

end Groups

section Layer

variable (layer : MVNImpl F) (dims : List Nat) {src dst : Nat} {before after : Memory F}

private theorem execute_rewrites {means variances : Nat → Schedule}
    (placed : Placed src dst (elements dims))
    (ran : execute sqrt layer dims src dst means variances before = .ok after) :
    Rewrites src dst (elements dims) (normalized sqrt layer (groupSize layer dims)) before after := by
  obtain ⟨between,first,ran⟩ := bind_passed ran
  have centered := images_rewrite placed first
  unfold normalized
  split_ifs at ran ⊢ with normalizes
  · have divided := images_rewrite (.inl rfl) ran
    exact centered.andThen divided (group_local _ _ _ layer.acrossChannels _)
  · obtain rfl := Except.ok.inj ran
    exact centered

private theorem exists_execute (src dst : Nat) (before : Memory F) :
    ∃ means variances after, execute sqrt layer dims src dst means variances before = .ok after := by
  obtain ⟨means,between,first⟩ := tryLoop_choose (dims.getD 0 1) before fun b memory =>
    exists_imagePass (C := dims.getD 1 1) (H := dims.getD 2 1) (W := dims.getD 3 1)
      layer.acrossChannels meanPass src dst b memory
  obtain ⟨variances,after,second⟩ := tryLoop_choose (dims.getD 0 1) between fun b memory =>
    exists_imagePass (C := dims.getD 1 1) (H := dims.getD 2 1) (W := dims.getD 3 1)
      layer.acrossChannels (variancePass sqrt layer.eps) dst dst b memory
  by_cases normalizes : layer.normalizeVariance = true
  · refine ⟨means,variances,after,?_⟩
    unfold execute
    simp only [first,normalizes,if_true]
    exact second
  · refine ⟨means,variances,between,?_⟩
    unfold execute
    simp only [first,normalizes]
    rfl

/-- The layer can be run, and in whatever order its threads take their turns, from one area to
another or in place, each group gets its mean subtracted and is divided by its deviation,
which is not 0, nothing else changes, and the elements of a group add up to nothing. -/
theorem execute_normalizes [CharZero F] (before : Memory F)
    (placed : Placed src dst (elements dims))
    (divides : layer.normalizeVariance = true → ∀ cell < elements dims,
      deviation sqrt layer.eps (groupSize layer dims) (before.offset src)
        (cell / groupSize layer dims) ≠ 0) :
    (∃ means variances after,
      execute sqrt layer dims src dst means variances before = .ok after) ∧
      ∀ means variances after, execute sqrt layer dims src dst means variances before = .ok after →
        Rewrites src dst (elements dims) (normalized sqrt layer (groupSize layer dims)) before after ∧
        (layer.normalizeVariance = true → ∀ cell < elements dims,
          after (dst + cell) * deviation sqrt layer.eps (groupSize layer dims) (before.offset src)
            (cell / groupSize layer dims) =
              meanPass.image (groupSize layer dims) (before.offset src) cell) ∧
        ∀ group, (group + 1) * groupSize layer dims ≤ elements dims →
          ∑ i ∈ Finset.range (groupSize layer dims),
            after (dst + (group * groupSize layer dims + i)) = 0 := by
  refine ⟨exists_execute sqrt layer dims src dst before,?_⟩
  intro means variances after ran
  have rewrites := execute_rewrites sqrt layer dims placed ran
  refine ⟨rewrites,?_,?_⟩
  · intro normalizes cell below
    rw [rewrites.cells cell below trivial]
    unfold normalized
    rw [if_pos normalizes]
    exact div_mul_cancel₀ _ (divides normalizes cell below)
  · intro group within
    rw [Nat.succ_mul] at within
    rw [← normalized_sum sqrt layer _ (before.offset src) group]
    apply Finset.sum_congr rfl
    intro i low
    have below := Finset.mem_range.mp low
    exact rewrites.cells _ (by omega) trivial

end Layer

/-- The deviation of 1 and 5 from their mean is 2. -/
theorem execute_normalizes_across :
    ∃ means variances after,
      execute (fun square : Rat => if square = 4 then 2 else 0) ⟨true,true,2⟩ [1,2] 0 2 means
          variances (fun address => [1,5].getD address 0) = .ok after ∧
        after 2 = -1 / 2 ∧ after 3 = 1 / 2 ∧ after 0 = 1 := by
  have divides : ∀ cell < elements [1,2], deviation (fun square : Rat => if square = 4 then 2 else 0)
      2 2 (Memory.offset (fun address => [1,5].getD address 0) 0) (cell / 2) ≠ 0 := by
    decide +kernel
  have normalizes := execute_normalizes (fun square : Rat => if square = 4 then 2 else 0)
    ⟨true,true,2⟩ [1,2] (fun address => [1,5].getD address 0)
    (.inr (.inl (by decide)) : Placed 0 2 (elements [1,2])) fun _ => divides
  obtain ⟨means,variances,after,ran⟩ := normalizes.1
  obtain ⟨rewrites,-⟩ := normalizes.2 means variances after ran
  refine ⟨means,variances,after,ran,?_,?_,?_⟩
  · rw [rewrites.cells 0 (by decide) trivial]
    norm_num [normalized,Pass.image,Pass.mean,meanPass,variancePass,groupSize,Finset.sum_range_succ]
  · rw [rewrites.cells 1 (by decide) trivial]
    norm_num [normalized,Pass.image,Pass.mean,meanPass,variancePass,groupSize,Finset.sum_range_succ]
  · rw [rewrites.only 0 fun cell _ _ => by omega]
    rfl

end VideoAnalytics.Mvn
