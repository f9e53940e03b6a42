import VideoAnalytics.TrackerFeatures

/-! The feature map that getFeatureMaps_gpu keeps between calls, and the heap
blocks behind it. What malloc, memalign and the GPU answer is an argument of the
call. -/
namespace VideoAnalytics.FeatureMaps
open Tracker

/-- A block of floats that has not been freed. -/
structure Block where
  address : Nat
  floats : Int
  deriving DecidableEq, Repr

structure CvLSVMFeatureMapCaskade where
  sizeX : Int
  sizeY : Int
  numFeatures : Int
  map : Option Nat
  deriving DecidableEq, Repr

/-- The members of a tracker around its feature map; a process that has read
through NULL makes no further calls. -/
structure Maps where
  templateWidth : Int
  templateHeight : Int
  svmFeaturemap : Option CvLSVMFeatureMapCaskade
  heap : List Block
  next : Nat
  crashed : Bool
  deriving DecidableEq, Repr

/-- One call of getFeatures: malloc and memalign tell whether these succeed in
allocFeatureMapObject, gpu whether everything else before ReadSurface does. -/
structure Call where
  tempWidth : Int
  tempHeight : Int
  malloc : Bool
  memalign : Bool
  gpu : Bool
  deriving DecidableEq, Repr

/-- The target is the live block behind the pointer, if there is one. -/
inductive Event
  | readSurface (tempWidth tempHeight : Int) (target : Option Block)
  | matrix (target : Option Block)
  deriving DecidableEq, Repr

def numFeatures : Int := 3 * 9 + 4

def start : Maps where
  templateWidth := -1
  templateHeight := -1
  svmFeaturemap := none
  heap := []
  next := 0
  crashed := false

def freeFeatureMapObject (maps : Maps) : Maps :=
  match maps.svmFeaturemap with
  | none => maps
  | some obj =>
    {maps with heap := maps.heap.filter fun block => some block.address ≠ obj.map
               svmFeaturemap := none}

def allocFeatureMapObject (maps : Maps) (sizeX sizeY numFeatures : Int) (malloc memalign : Bool) :
    Maps :=
  if malloc then
    if memalign then
      {maps with svmFeaturemap := some ⟨sizeX,sizeY,numFeatures,some maps.next⟩
                 heap := ⟨maps.next,sizeX * sizeY * numFeatures⟩ :: maps.heap
                 next := maps.next + 1}
    else {maps with svmFeaturemap := some ⟨sizeX,sizeY,numFeatures,none⟩}
  else {maps with svmFeaturemap := none}

def Maps.target (maps : Maps) : Option Block := do
  let obj ← maps.svmFeaturemap
  let address ← obj.map
  maps.heap.find? fun block => block.address = address

/-- The call has not the template size of the last one. -/
def Maps.Resized (maps : Maps) (call : Call) : Prop :=
  call.tempWidth ≠ maps.templateWidth ∨ call.tempHeight ≠ maps.templateHeight

instance (maps : Maps) (call : Call) : Decidable (maps.Resized call) :=
  inferInstanceAs (Decidable (_ ∨ _))

/-- The block under the guard on the template size. -/
def refreshMap (maps : Maps) (call : Call) : Maps :=
  let sizeX := call.tempWidth.tdiv cellSize
  let sizeY := call.tempHeight.tdiv cellSize
  let maps := {maps with templateWidth := call.tempWidth, templateHeight := call.tempHeight}
  allocFeatureMapObject (freeFeatureMapObject maps) (sizeX - 2) (sizeY - 2) numFeatures
    call.malloc call.memalign

def getFeatureMapsGpu (maps : Maps) (call : Call) : Maps × List Event :=
  let resized := decide (maps.Resized call)
  let maps := if resized then refreshMap maps call else maps
  if resized ∧ maps.svmFeaturemap = none then (maps,[])
  else if call.gpu then
    ({maps with crashed := maps.svmFeaturemap.isNone},
      [.readSurface call.tempWidth call.tempHeight maps.target])
  else (maps,[])

/-- getFeatures looks at the map whatever getFeatureMaps_gpu returned. -/
def getFeatures : Machine.System Maps Call Event where
  step maps call :=
    if maps.crashed then none
    else
      let (maps,events) := getFeatureMapsGpu maps call
      if maps.crashed ∨ maps.svmFeaturemap = none then some (maps,events)
      else some (maps,events ++ [.matrix maps.target])

def mapFloats (tempWidth tempHeight : Int) : Int :=
  (tempWidth.tdiv cellSize - 2) * (tempHeight.tdiv cellSize - 2) * numFeatures

def Event.Good : Event → Prop
  | .readSurface tempWidth tempHeight target =>
    ∃ block, target = some block ∧ block.floats = mapFloats tempWidth tempHeight
  | .matrix target => target.isSome

/-- The call does not run into a failed allocation: not into that of its own
memalign, and not into a NULL map or NULL floats that an earlier call of the same
size has left. -/
def Survives (maps : Maps) (call : Call) : Prop :=
  if maps.Resized call then call.malloc → call.memalign
  else match maps.svmFeaturemap with
    | none => ¬call.gpu
    | some obj => obj.map.isSome

/-- The floats of the map, where it has any, are for the recorded size. -/
def Fits (maps : Maps) : Prop :=
  ∀ obj, maps.svmFeaturemap = some obj → ∀ address, obj.map = some address →
    ∃ block, maps.target = some block ∧
      block.floats = mapFloats maps.templateWidth maps.templateHeight

@[simp] theorem free_fields (maps : Maps) :
    (freeFeatureMapObject maps).templateWidth = maps.templateWidth ∧
      (freeFeatureMapObject maps).templateHeight = maps.templateHeight ∧
      (freeFeatureMapObject maps).crashed = maps.crashed := by
  unfold freeFeatureMapObject
  split <;> simp

@[simp] theorem alloc_fields (maps : Maps) (sizeX sizeY numFeatures : Int) (malloc memalign : Bool) :
    let next := allocFeatureMapObject maps sizeX sizeY numFeatures malloc memalign
    next.templateWidth = maps.templateWidth ∧ next.templateHeight = maps.templateHeight ∧
      next.crashed = maps.crashed := by
  unfold allocFeatureMapObject
  dsimp only
  split
  · split <;> simp
  · simp

section Refresh

variable (maps : Maps) (call : Call)

private theorem refreshMap_fields : (refreshMap maps call).templateWidth = call.tempWidth ∧
    (refreshMap maps call).templateHeight = call.tempHeight ∧
    (refreshMap maps call).crashed = maps.crashed := by
  simp [refreshMap]

private theorem refreshMap_malloc (failed : call.malloc = false) :
    (refreshMap maps call).svmFeaturemap = none := by
  simp [refreshMap,allocFeatureMapObject,failed]

private theorem refreshMap_memalign (succeeded : call.malloc = true)
    (failed : call.memalign = false) :
    ∃ obj, (refreshMap maps call).svmFeaturemap = some obj ∧ obj.map = none := by
  simp [refreshMap,allocFeatureMapObject,succeeded,failed]

private theorem refreshMap_allocated (object : call.malloc = true) (floats : call.memalign = true) :
    ∃ obj block, (refreshMap maps call).svmFeaturemap = some obj ∧ obj.map.isSome ∧
      (refreshMap maps call).target = some block ∧
      block.floats = mapFloats call.tempWidth call.tempHeight := by
  simp [refreshMap,allocFeatureMapObject,object,floats,Maps.target,mapFloats]

private theorem target_none {obj : CvLSVMFeatureMapCaskade} (held : maps.svmFeaturemap = some obj)
    (missing : obj.map = none) : maps.target = none := by
  simp [Maps.target,held,missing]

private theorem refreshMap_fits : Fits (refreshMap maps call) := by
  intro obj held address pointer
  cases object : call.malloc with
  | false =>
    rw [refreshMap_malloc maps call object] at held
    contradiction
  | true =>
    cases floats : call.memalign with
    | false =>
      obtain ⟨other,same,missing⟩ := refreshMap_memalign maps call object floats
      rw [held,Option.some.injEq] at same
      rw [same,missing] at pointer
      contradiction
    | true =>
      obtain ⟨_,block,_,_,found,size⟩ := refreshMap_allocated maps call object floats
      obtain ⟨width,height,_⟩ := refreshMap_fields maps call
      exact ⟨block,found,by rw [width,height]; exact size⟩

def passGuard : Maps := if maps.Resized call then refreshMap maps call else maps

private theorem passGuard_fields : (passGuard maps call).templateWidth = call.tempWidth ∧
    (passGuard maps call).templateHeight = call.tempHeight ∧
    (passGuard maps call).crashed = maps.crashed := by
  unfold passGuard
  split
  · exact refreshMap_fields maps call
  · next same =>
    simp only [Maps.Resized,not_or,not_not] at same
    exact ⟨same.1.symm,same.2.symm,rfl⟩

private theorem passGuard_fits (fits : Fits maps) : Fits (passGuard maps call) := by
  unfold passGuard
  split
  · exact refreshMap_fits maps call
  · exact fits

/-- A call without a map returns early, is stopped by the GPU or crashes. -/
theorem step_none (running : maps.crashed = false) (empty : (passGuard maps call).svmFeaturemap = none) :
    getFeatures.step maps call =
      if maps.Resized call ∨ ¬call.gpu then some (passGuard maps call,[])
      else some ({passGuard maps call with crashed := true},
        [.readSurface call.tempWidth call.tempHeight none]) := by
  have target : (passGuard maps call).target = none := by simp [Maps.target,empty]
  have alive := (passGuard_fields maps call).2.2
  rw [running] at alive
  unfold passGuard at empty target alive ⊢
  by_cases resized : maps.Resized call
  · simp only [if_pos resized] at empty alive ⊢
    simp [getFeatures,getFeatureMapsGpu,running,resized,empty,alive]
  · simp only [if_neg resized] at empty target ⊢
    cases gpu : call.gpu with
    | false => simp [getFeatures,getFeatureMapsGpu,running,resized,empty,gpu]
    | true => simp [getFeatures,getFeatureMapsGpu,running,resized,empty,gpu,target]

private theorem step_some (running : maps.crashed = false) {obj : CvLSVMFeatureMapCaskade}
    (held : (passGuard maps call).svmFeaturemap = some obj) :
    getFeatures.step maps call = some (passGuard maps call,
      (if call.gpu then
        [.readSurface call.tempWidth call.tempHeight (passGuard maps call).target] else []) ++
        [.matrix (passGuard maps call).target]) := by
  have alive := (passGuard_fields maps call).2.2
  rw [running] at alive
  have guarded : (if decide (maps.Resized call) = true then refreshMap maps call else maps) =
      passGuard maps call := by
    simp [passGuard]
  simp only [getFeatures,getFeatureMapsGpu,running,guarded,held]
  cases gpu : call.gpu with
  | false => simp [alive,held]
  | true =>
    generalize passGuard maps call = kept at held alive
    cases kept
    simp only at held alive
    subst held alive
    simp [Maps.target]

private theorem survives_none (empty : (passGuard maps call).svmFeaturemap = none) :
    Survives maps call ↔ maps.Resized call ∨ ¬call.gpu := by
  unfold Survives
  unfold passGuard at empty
  by_cases resized : maps.Resized call
  · rw [if_pos resized] at empty ⊢
    have absent : call.malloc = false := by
      cases object : call.malloc with
      | false => rfl
      | true =>
        cases floats : call.memalign with
        | false =>
          obtain ⟨_,held,_⟩ := refreshMap_memalign maps call object floats
          simp [held] at empty
        | true =>
          obtain ⟨_,_,held,_⟩ := refreshMap_allocated maps call object floats
          simp [held] at empty
    simp [resized,absent]
  · rw [if_neg resized] at empty ⊢
    simp [resized,empty]

private theorem survives_some {obj : CvLSVMFeatureMapCaskade}
    (held : (passGuard maps call).svmFeaturemap = some obj) :
    Survives maps call ↔ obj.map.isSome := by
  unfold Survives
  unfold passGuard at held
  by_cases resized : maps.Resized call
  · rw [if_pos resized] at held ⊢
    cases object : call.malloc with
    | false =>
      rw [refreshMap_malloc maps call object] at held
      contradiction
    | true =>
      cases floats : call.memalign with
      | false =>
        obtain ⟨other,same,missing⟩ := refreshMap_memalign maps call object floats
        rw [held,Option.some.injEq] at same
        simp [same,missing]
      | true =>
        obtain ⟨other,_,same,pointer,_⟩ := refreshMap_allocated maps call object floats
        rw [held,Option.some.injEq] at same
        simp [same,pointer]
  · rw [if_neg resized] at held ⊢
    simp [held]

/-- A call that meets the condition uses a map of its own size only; no other call
does. -/
theorem step_good (next : Maps) (emitted : List Event) (fits : Fits maps)
    (stepped : getFeatures.step maps call = some (next,emitted)) :
    Survives maps call ↔ ∀ event ∈ emitted, event.Good := by
  have running : maps.crashed = false := by
    by_contra crashed
    simp [getFeatures,crashed] at stepped
  obtain ⟨width,height,_⟩ := passGuard_fields maps call
  cases held : (passGuard maps call).svmFeaturemap with
  | none =>
    rw [survives_none maps call held]
    rw [step_none maps call running held] at stepped
    split at stepped
    · next early =>
      simp only [Option.some.injEq,Prod.mk.injEq] at stepped
      obtain ⟨-,rfl⟩ := stepped
      exact iff_of_true early (by simp)
    · next late =>
      simp only [Option.some.injEq,Prod.mk.injEq] at stepped
      obtain ⟨-,rfl⟩ := stepped
      exact iff_of_false late (by simp [Event.Good])
  | some obj =>
    rw [survives_some maps call held]
    rw [step_some maps call running held,Option.some.injEq,Prod.mk.injEq] at stepped
    obtain ⟨-,rfl⟩ := stepped
    cases pointer : obj.map with
    | none =>
      have missing := target_none _ held pointer
      simp [missing,Event.Good]
    | some address =>
      obtain ⟨block,found,size⟩ := passGuard_fits maps call fits obj held address pointer
      rw [width,height] at size
      have read : Event.Good (.readSurface call.tempWidth call.tempHeight (some block)) :=
        ⟨block,rfl,size⟩
      have built : Event.Good (.matrix (some block)) := rfl
      rw [found]
      split
      · simp [read,built]
      · simp [built]

private theorem step_fits (next : Maps) (emitted : List Event) (fits : Fits maps)
    (stepped : getFeatures.step maps call = some (next,emitted)) : Fits next := by
  have running : maps.crashed = false := by
    by_contra crashed
    simp [getFeatures,crashed] at stepped
  have kept := passGuard_fits maps call fits
  cases held : (passGuard maps call).svmFeaturemap with
  | none =>
    rw [step_none maps call running held] at stepped
    intro obj present
    split at stepped
    · simp only [Option.some.injEq,Prod.mk.injEq] at stepped
      obtain ⟨rfl,-⟩ := stepped
      simp [held] at present
    · simp only [Option.some.injEq,Prod.mk.injEq] at stepped
      obtain ⟨rfl,-⟩ := stepped
      simp [held] at present
  | some obj =>
    rw [step_some maps call running held,Option.some.injEq,Prod.mk.injEq] at stepped
    obtain ⟨rfl,-⟩ := stepped
    exact kept

end Refresh

/-- In every run the calls use a map of their own size only, if and only if each
meets the condition. -/
theorem feature_map_survives_iff (calls : List Call) (final : Maps) (trace : List Event)
    (ran : getFeatures.run start calls = some (final,trace)) :
    getFeatures.Along Survives start calls ↔ ∀ event ∈ trace, event.Good := by
  have initially : Fits start := by
    intro obj held
    simp [start] at held
  exact Machine.along_iff_trace Fits (fun maps call => step_fits maps call)
    (fun maps call => step_good maps call) initially ran

theorem feature_map_survives_resize : ∃ final trace,
    getFeatures.run start [⟨104,104,true,true,true⟩,⟨104,56,false,true,true⟩,
      ⟨104,104,true,true,true⟩] = some (final,trace) ∧
    (getFeatures.Along Survives start [⟨104,104,true,true,true⟩,⟨104,56,false,true,true⟩,
      ⟨104,104,true,true,true⟩] ↔ ∀ event ∈ trace, event.Good) :=
  ⟨_,_,rfl,feature_map_survives_iff _ _ _ rfl⟩

/-- Two calls of one size, the first with a failed malloc; and one call with a
failed memalign. -/
theorem feature_map_lost : (∃ final trace,
    getFeatures.run start [⟨104,56,false,true,true⟩,⟨104,56,true,true,true⟩] = some (final,trace) ∧
      ¬∀ event ∈ trace, event.Good) ∧
    ∃ final trace, getFeatures.run start [⟨104,56,true,false,true⟩] = some (final,trace) ∧
      ¬∀ event ∈ trace, event.Good := by
  refine ⟨⟨_,_,rfl,?_⟩,⟨_,_,rfl,?_⟩⟩
  · intro good
    obtain ⟨block,found,_⟩ := good (.readSurface 104 56 none) (by decide)
    contradiction
  · intro good
    obtain ⟨block,found,_⟩ := good (.readSurface 104 56 none) (by decide)
    contradiction

end VideoAnalytics.FeatureMaps
