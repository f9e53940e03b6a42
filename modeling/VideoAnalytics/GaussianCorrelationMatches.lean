import VideoAnalytics.GaussianCorrelationHistory

/-! When the resources that the kernels are bound to match the call that enqueues
them. -/
namespace VideoAnalytics.GaussianCorrelation
open Dft EarlyReturn

def Stage.created : Stage → List Surface
  | .refresh surface => (block surface).created
  | _ => []

def Stage.tables : Stage → List Axis
  | .table axis => [axis]
  | _ => []

def Stage.names : Stage → List (Surface ⊕ Axis)
  | .bind _ surfaces axis => surfaces.map .inl ++ axis.toList.map .inr
  | _ => []

def Task.names (task : Task) : List (Surface ⊕ Axis) := task.stages.flatMap Stage.names

def Binding.name {F : Type} : Binding F → Surface ⊕ Axis
  | .surface name _ => .inl name
  | .table axis _ _ => .inr axis

/-- Each resource is refreshed once and before it is bound, and a task is enqueued
when all of its resources are. -/
def Allowed (earlier done : List Stage) : Stage → Prop
  | .refresh surface => ∀ other ∈ (block surface).created, other ∉ (earlier ++ done).flatMap Stage.created
  | .table axis => axis ∉ (earlier ++ done).flatMap Stage.tables
  | .bind _ surfaces axis => (∀ surface ∈ surfaces, surface ∈ (earlier ++ done).flatMap Stage.created) ∧
      ∀ one ∈ axis.toList, one ∈ (earlier ++ done).flatMap Stage.tables
  | .enqueue task => done.flatMap Stage.names = task.names
  | _ => True

instance allowed_decidable (earlier done : List Stage) :
    ∀ stage, Decidable (Allowed earlier done stage)
  | .refresh surface => inferInstanceAs (Decidable (∀ other ∈ (block surface).created, _))
  | .write _ => .isTrue trivial
  | .table _ => inferInstanceAs (Decidable (¬_))
  | .kernel _ => .isTrue trivial
  | .bind _ surfaces axis =>
    inferInstanceAs (Decidable
      ((∀ surface ∈ surfaces, surface ∈ (earlier ++ done).flatMap Stage.created) ∧
        ∀ one ∈ axis.toList, one ∈ (earlier ++ done).flatMap Stage.tables))
  | .attempt _ _ => .isTrue trivial
  | .enqueue _ => inferInstanceAs (Decidable (_ = _))

private theorem ordered_correlation : Ordered (Allowed []) [] correlationStages := by
  decide +kernel

private theorem ordered_srcImageSum : Ordered (Allowed correlationStages) [] srcImageSumStages := by
  decide +kernel

private theorem ordered_finalExp : Ordered (Allowed correlationStages) [] finalExpStages := by
  decide +kernel

section Settled

variable {D F : Type} [FloatType D] (math : Math D F) (cache : Cache F) (sizes : Sizes)

/-- What a call leaves in a surface that it binds. -/
def settled (surface : Surface) : Option Extent :=
  if guard cache sizes (block surface) then some (sizes.extent surface) else cache.held surface

def settledTable (axis : Axis) : Option (Table F) :=
  if cache.recorded.pitch axis ≠ sizes.pitch axis then some (dftTable math (sizes.pitch axis))
  else cache.table axis

def settledNf (axis : Axis) : Nat :=
  if cache.recorded.pitch axis ≠ sizes.pitch axis then (dftFactorize (sizes.pitch axis)).length
  else cache.nf axis

def Binding.Settled : Binding F → Prop
  | .surface name extent => settled cache sizes name = some extent
  | .table axis values nf =>
    settledTable math cache sizes axis = some values ∧ settledNf cache sizes axis = nf

/-- The tracker when so much of a call has been done: a resource whose stage has
been reached is settled unless it is missing, and the others are as before. -/
structure Reached (earlier done : List Stage) (frame : Frame F) : Prop where
  recorded : frame.cache.recorded = cache.recorded
  surfaces : ∀ surface ∈ (earlier ++ done).flatMap Stage.created, ∀ extent,
    frame.cache.held surface = some extent → settled cache sizes surface = some extent
  others : ∀ surface, surface ∉ (earlier ++ done).flatMap Stage.created →
    frame.cache.held surface = cache.held surface
  tables : ∀ axis ∈ (earlier ++ done).flatMap Stage.tables,
    frame.cache.nf axis = settledNf cache sizes axis ∧ ∀ table,
      frame.cache.table axis = some table → settledTable math cache sizes axis = some table
  otherTables : ∀ axis, axis ∉ (earlier ++ done).flatMap Stage.tables →
    frame.cache.nf axis = cache.nf axis ∧ frame.cache.table axis = cache.table axis
  bound : ∀ binding ∈ frame.bound, binding.Settled math cache sizes
  names : frame.bound.map Binding.name = done.flatMap Stage.names

/-- What holds of the arguments of an Enqueue. -/
def Event.Good : Event F → Prop
  | .enqueued required task bound => required = sizes ∧
      (∀ binding ∈ bound, binding.Settled math cache sizes) ∧ bound.map Binding.name = task.names
  | _ => True

end Settled

section Surfaces

variable {F : Type} (call : Call)

/-- Some surfaces have been created again as far as they are there, and nothing
else has changed. -/
def Recreated (surfaces : List Surface) (before after : Frame F) : Prop :=
  ∃ held, after = {before with cache := {before.cache with held := held}} ∧
    (∀ surface, surface ∉ surfaces → held surface = before.cache.held surface) ∧
    ∀ surface ∈ surfaces, ∀ extent, held surface = some extent →
      extent = call.sizes.extent surface

private theorem hold_recreated (surfaces : List Surface) (before after : Frame F)
    (surface : Surface)
    (inside : surface ∈ surfaces) (recreated : Recreated call surfaces before after) :
    Recreated call surfaces before (after.hold surface (some (call.sizes.extent surface))) := by
  obtain ⟨held,rfl,others,fresh⟩ := recreated
  refine ⟨_,rfl,?_,?_⟩
  · intro other outside
    have different : other ≠ surface := by
      intro same
      exact outside (same ▸ inside)
    rw [Function.update_of_ne different]
    exact others other outside
  · intro other member extent present
    by_cases same : other = surface
    · subst same
      rw [Function.update_self,Option.some.injEq] at present
      exact present.symm
    · rw [Function.update_of_ne same] at present
      exact fresh other member extent present

private theorem cleared_held (surfaces : List Surface) (frame : Frame F) :
    ∃ held, surfaces.foldl (fun frame surface => frame.hold surface none) frame =
        {frame with cache := {frame.cache with held := held}} ∧
      ∀ surface, held surface = if surface ∈ surfaces then none else frame.cache.held surface := by
  induction surfaces generalizing frame with
  | nil => exact ⟨frame.cache.held,rfl,by simp⟩
  | cons first rest ih =>
    obtain ⟨held,cleared,values⟩ := ih (frame.hold first none)
    refine ⟨held,cleared,?_⟩
    intro surface
    rw [values surface]
    by_cases later : surface ∈ rest
    · simp [later]
    · by_cases same : surface = first
      · simp [same,Frame.hold]
      · simp [later,same,Frame.hold]

private theorem cleared_recreated (surfaces : List Surface) (frame : Frame F) :
    Recreated call surfaces frame
      (surfaces.foldl (fun frame surface => frame.hold surface none) frame) := by
  obtain ⟨held,cleared,values⟩ := cleared_held surfaces frame
  refine ⟨held,cleared,?_,?_⟩
  · intro surface outside
    rw [values,if_neg outside]
  · intro surface inside extent present
    rw [values,if_pos inside] at present
    contradiction

private theorem create_recreated (checked : Surface) (surfaces rest : List Surface)
    (before frame : Frame F) (inside : ∀ surface ∈ rest, surface ∈ surfaces)
    (recreated : Recreated call surfaces before frame) {good : Event F → Prop}
    (creates : ∀ surface sizes, good (.created surface sizes)) :
    Meets good (Recreated call surfaces before) (Recreated call surfaces before)
      (create call checked rest frame) := by
  induction rest generalizing frame with
  | nil => exact .proceed recreated
  | cons surface rest ih =>
    have later := fun frame => ih frame fun other member => inside other (List.mem_cons_of_mem _ member)
    unfold create
    split
    · have held := hold_recreated call surfaces before frame surface
        (inside surface List.mem_cons_self) recreated
      exact .emit_andThen (by simpa using creates surface call.sizes) (later _ held)
    · split
      · exact .stopped recreated
      · exact later frame recreated

end Surfaces

private theorem block_guarded (surface : Surface) :
    ∀ other ∈ (block surface).guarded, other ∈ (block surface).created := by
  cases surface <;> decide

private theorem block_created (surface : Surface) :
    ∀ other ∈ (block surface).created, block other = block surface := by
  cases surface <;> decide

private theorem mapM_named {α β γ : Type} (name : β → γ) (label : α → γ) (holds : β → Prop)
    {find : α → Option β} {values : List α} {results : List β}
    (each : ∀ value ∈ values, ∀ result, find value = some result →
      holds result ∧ name result = label value) (found : values.mapM find = some results) :
    (∀ result ∈ results, holds result) ∧ results.map name = values.map label := by
  induction values generalizing results with
  | nil =>
    simp only [List.mapM_nil,pure,Option.some.injEq] at found
    subst found
    simp
  | cons value rest ih =>
    simp only [List.mapM_cons,Option.bind_eq_bind,Option.bind_eq_some_iff,pure,
      Option.some.injEq] at found
    obtain ⟨first,here,others,later,rfl⟩ := found
    obtain ⟨good,same⟩ := each value List.mem_cons_self first here
    obtain ⟨all,names⟩ := ih (fun other member => each other (List.mem_cons_of_mem _ member)) later
    refine ⟨?_,by rw [List.map_cons,List.map_cons,same,names]⟩
    intro result member
    rcases List.mem_cons.mp member with now | after
    · exact now ▸ good
    · exact all result after

section Reached

variable {D F : Type} [FloatType D] (math : Math D F) (cache : Cache F) (call : Call)
  {earlier done : List Stage} {frame : Frame F}

private theorem mem_next {α : Type} (of : Stage → List α) (value : α) (stage : Stage) :
    value ∈ (earlier ++ (done ++ [stage])).flatMap of ↔
      value ∈ (earlier ++ done).flatMap of ∨ value ∈ of stage := by
  simp [or_assoc]

private theorem names_next (stage : Stage) : (done ++ [stage]).flatMap Stage.names =
    done.flatMap Stage.names ++ stage.names := by
  simp

variable {math cache call}

private theorem Reached.refreshed (reached : Reached math cache call.sizes earlier done frame)
    (surface : Surface) (held : Surface → Option Extent)
    (others : ∀ other, other ∉ (block surface).created → held other = frame.cache.held other)
    (fresh : ∀ other ∈ (block surface).created, ∀ extent, held other = some extent →
      settled cache call.sizes other = some extent) :
    Reached math cache call.sizes earlier (done ++ [.refresh surface])
      {frame with cache := {frame.cache with held := held}} where
  recorded := reached.recorded
  surfaces other member extent present := by
    by_cases now : other ∈ (block surface).created
    · exact fresh other now extent present
    · rw [mem_next] at member
      have before := member.resolve_right now
      apply reached.surfaces other before extent
      rw [← others other now]
      exact present
  others other outside := by
    rw [mem_next,not_or] at outside
    have same := reached.others other outside.1
    rw [← same]
    exact others other outside.2
  tables axis member := by
    rw [mem_next] at member
    exact reached.tables axis (by simpa [Stage.tables] using member)
  otherTables axis outside := by
    rw [mem_next] at outside
    exact reached.otherTables axis (by simpa [Stage.tables] using outside)
  bound := reached.bound
  names := by
    rw [names_next]
    simpa [Stage.names] using reached.names

private theorem refresh_reached (surface : Surface)
    (allowed : Allowed earlier done (.refresh surface))
    (reached : Reached math cache call.sizes earlier done frame) :
    Meets (Event.Good math cache call.sizes)
      (Reached math cache call.sizes earlier (done ++ [.refresh surface]))
      (Reached math cache call.sizes earlier (done ++ [.refresh surface]))
      (refresh call surface frame) := by
  have untouched : ∀ other ∈ (block surface).created,
      frame.cache.held other = cache.held other := by
    intro other member
    exact reached.others other (allowed other member)
  have same : guard frame.cache call.sizes (block surface) =
      guard cache call.sizes (block surface) := by
    unfold guard
    rw [reached.recorded]
    congr 1
    rw [Bool.eq_iff_iff]
    simp only [List.any_eq_true]
    apply exists_congr
    intro other
    apply and_congr_right
    intro member
    rw [untouched other (block_guarded surface other member)]
  have settled_of : ∀ other ∈ (block surface).created, settled cache call.sizes other =
      if guard cache call.sizes (block surface) then some (call.sizes.extent other)
      else cache.held other := by
    intro other member
    unfold settled
    rw [block_created surface other member]
  unfold refresh
  dsimp only
  rw [same]
  cases open_ : guard cache call.sizes (block surface) with
  | true =>
    have next_of : ∀ after, Recreated call (block surface).created frame after →
        Reached math cache call.sizes earlier (done ++ [.refresh surface]) after := by
      intro after recreated
      obtain ⟨held,rfl,others,fresh⟩ := recreated
      apply reached.refreshed surface held others
      intro other member extent present
      rw [settled_of other member,if_pos open_,fresh other member extent present]
    have cleared := cleared_recreated call (block surface).created frame
    apply Meets.emit_andThen (by simp [Event.Good])
    apply Meets.weaken _ next_of next_of
    exact create_recreated call (block surface).checked (block surface).created _ frame _
      (fun other member => member) cleared fun _ _ => trivial
  | false =>
    apply Meets.proceed
    apply reached.refreshed surface frame.cache.held (fun _ _ => rfl)
    intro other member extent present
    rw [settled_of other member,open_,if_neg Bool.false_ne_true,← untouched other member]
    exact present

private theorem Reached.filled (reached : Reached math cache call.sizes earlier done frame)
    (axis : Axis) (itab : Int → Int) (nf : Nat) (table : Option (Table F))
    (counted : nf = settledNf cache call.sizes axis)
    (fresh : ∀ values, table = some values → settledTable math cache call.sizes axis = some values) :
    Reached math cache call.sizes earlier (done ++ [.table axis])
      {frame with cache := {frame.cache with
                    nf := Function.update frame.cache.nf axis nf
                    table := Function.update frame.cache.table axis table}
                  itab := itab} where
  recorded := reached.recorded
  surfaces surface member := by
    rw [mem_next] at member
    exact reached.surfaces surface (by simpa [Stage.created] using member)
  others surface outside := by
    rw [mem_next] at outside
    exact reached.others surface (by simpa [Stage.created] using outside)
  tables other member := by
    by_cases now : other = axis
    · subst now
      simp only [Function.update_self]
      exact ⟨counted,fresh⟩
    · rw [mem_next] at member
      simp only [Function.update_of_ne now]
      exact reached.tables other (by simpa [Stage.tables,now] using member)
  otherTables other outside := by
    rw [mem_next,not_or] at outside
    have now : other ≠ axis := by simpa [Stage.tables] using outside.2
    simp only [Function.update_of_ne now]
    exact reached.otherTables other outside.1
  bound := reached.bound
  names := by
    rw [names_next]
    simpa [Stage.names] using reached.names

private theorem table_reached (axis : Axis)
    (allowed : Allowed earlier done (.table axis))
    (reached : Reached math cache call.sizes earlier done frame) :
    Meets (Event.Good math cache call.sizes)
      (Reached math cache call.sizes earlier (done ++ [.table axis]))
      (Reached math cache call.sizes earlier (done ++ [.table axis]))
      (refreshTable math call axis frame) := by
  obtain ⟨counted,kept⟩ := reached.otherTables axis allowed
  have recorded : cache.recorded = frame.cache.recorded := reached.recorded.symm
  unfold refreshTable
  dsimp only
  by_cases changed : frame.cache.recorded.pitch axis ≠ call.sizes.pitch axis
  · rw [if_pos changed]
    split
    · next within =>
      have counted : (dftFactorize (call.sizes.pitch axis)).length =
          settledNf cache call.sizes axis := by
        rw [settledNf,recorded,if_pos changed]
      have cleared := fun itab => reached.filled axis itab _ none counted (by simp)
      have filled := fun itab => reached.filled axis itab _
        (some (dftTable math (call.sizes.pitch axis))) counted (by
          rw [settledTable,recorded,if_pos changed]
          simp)
      rw [tableOf_eq _ within]
      apply Meets.emit_andThen (by simp [Event.Good])
      split
      · split
        · have same := filled (store (clearItab axis frame.itab)
            (itabWrites (call.sizes.pitch axis) (dftFactorize (call.sizes.pitch axis))))
          refine .emit (by simp [Event.Good]) ?_
          simpa only [Function.update_idem] using same
        · exact .proceed (cleared _)
      · exact .stopped (cleared _)
    · exact .undefined ..
  · rw [if_neg changed]
    have same := reached.filled axis frame.itab (frame.cache.nf axis) (frame.cache.table axis)
      (by rw [settledNf,recorded,if_neg changed,counted]) (by
        intro values present
        rw [settledTable,recorded,if_neg changed,← kept,present])
    simp only [Function.update_eq_self] at same
    exact .proceed same

private theorem Reached.binds (reached : Reached math cache call.sizes earlier done frame)
    (stage : Stage)
    (creates : stage.created = []) (fills : stage.tables = []) {arguments : List (Binding F)}
    (settled : ∀ binding ∈ arguments, binding.Settled math cache call.sizes)
    (named : arguments.map Binding.name = stage.names) :
    Reached math cache call.sizes earlier (done ++ [stage])
      {frame with bound := frame.bound ++ arguments} where
  recorded := reached.recorded
  surfaces surface member := by
    rw [mem_next,creates] at member
    exact reached.surfaces surface (by simpa using member)
  others surface outside := by
    rw [mem_next,creates] at outside
    exact reached.others surface (by simpa using outside)
  tables axis member := by
    rw [mem_next,fills] at member
    exact reached.tables axis (by simpa using member)
  otherTables axis outside := by
    rw [mem_next,fills] at outside
    exact reached.otherTables axis (by simpa using outside)
  bound binding member := by
    rcases List.mem_append.mp member with before | now
    · exact reached.bound binding before
    · exact settled binding now
  names := by
    rw [names_next,List.map_append,reached.names,named]

private theorem Reached.other (reached : Reached math cache call.sizes earlier done frame)
    (stage : Stage)
    (creates : stage.created = []) (fills : stage.tables = []) (named : stage.names = [])
    (kernels : Kernel → Bool) :
    Reached math cache call.sizes earlier (done ++ [stage])
      {frame with cache := {frame.cache with kernels := kernels}} := by
  have none : ∀ binding ∈ ([] : List (Binding F)), binding.Settled math cache call.sizes := by simp
  have same := reached.binds stage creates fills none named.symm
  rw [List.append_nil] at same
  exact ⟨same.recorded,same.surfaces,same.others,same.tables,same.otherTables,same.bound,same.names⟩

private theorem bind_reached (kernel : Kernel) (surfaces : List Surface) (axis : Option Axis)
    (good : Event F → Prop) (allowed : Allowed earlier done (.bind kernel surfaces axis))
    (reached : Reached math cache call.sizes earlier done frame) :
    Meets good (Reached math cache call.sizes earlier (done ++ [.bind kernel surfaces axis]))
      (Reached math cache call.sizes earlier (done ++ [.bind kernel surfaces axis]))
      (bind call kernel surfaces axis frame) := by
  unfold bind
  dsimp only
  split
  · exact .undefined ..
  · split
    · exact .undefined ..
    · next arguments found =>
      simp only [Option.bind_eq_bind,Option.bind_eq_some_iff,Option.some.injEq] at found
      obtain ⟨buffers,buffers_found,tables,tables_found,rfl⟩ := found
      have first := mapM_named Binding.name Sum.inl (Binding.Settled math cache call.sizes) (by
          intro name member result present
          obtain ⟨extent,held,rfl⟩ := Option.map_eq_some_iff.mp present
          exact ⟨reached.surfaces name (allowed.1 name member) extent held,rfl⟩) buffers_found
      have second := mapM_named Binding.name Sum.inr (Binding.Settled math cache call.sizes) (by
          intro axis member result present
          obtain ⟨values,filled,rfl⟩ := Option.map_eq_some_iff.mp present
          obtain ⟨counted,settled⟩ := reached.tables axis (allowed.2 axis member)
          exact ⟨⟨settled values filled,counted.symm⟩,rfl⟩) tables_found
      apply Meets.proceed
      apply reached.binds (.bind kernel surfaces axis) rfl rfl
      · intro binding member
        rcases List.mem_append.mp member with surface | table
        · exact first.1 binding surface
        · exact second.1 binding table
      · rw [List.map_append,first.2,second.2]
        rfl

private theorem kernel_reached (name : Kernel) (good : Event F → Prop)
    (reached : Reached math cache call.sizes earlier done frame) :
    Meets good (Reached math cache call.sizes earlier (done ++ [.kernel name]))
      (Reached math cache call.sizes earlier (done ++ [.kernel name]))
      (refreshKernel call name frame) := by
  have passed := reached.other (.kernel name) rfl rfl rfl
  unfold refreshKernel
  split
  · exact .proceed (passed frame.cache.kernels)
  · split
    · exact .stopped (passed frame.cache.kernels)
    · split
      · exact .stopped (passed _)
      · exact .proceed (passed _)

private theorem perform_reached (stage : Stage) (allowed : Allowed earlier done stage)
    (reached : Reached math cache call.sizes earlier done frame) :
    Meets (Event.Good math cache call.sizes)
      (Reached math cache call.sizes earlier (done ++ [stage]))
      (Reached math cache call.sizes earlier (done ++ [stage])) (perform math call stage frame) := by
  cases stage with
  | refresh surface => exact refresh_reached surface allowed reached
  | write surface =>
    have passed := reached.other (.write surface) rfl rfl rfl frame.cache.kernels
    simp only [perform]
    split
    · exact .undefined ..
    · split
      · exact .proceed passed
      · exact .stopped passed
  | table axis => exact table_reached axis allowed reached
  | kernel name => exact kernel_reached name _ reached
  | bind kernel surfaces axis => exact bind_reached kernel surfaces axis _ allowed reached
  | attempt task attempt =>
    have passed := reached.other (.attempt task attempt) rfl rfl rfl frame.cache.kernels
    simp only [perform]
    split
    · exact .proceed passed
    · exact .stopped passed
  | enqueue task =>
    have passed := reached.other (.enqueue task) rfl rfl rfl frame.cache.kernels
    have now : Event.Good math cache call.sizes (.enqueued call.sizes task frame.bound) :=
      ⟨rfl,reached.bound,reached.names.trans allowed⟩
    rw [perform]
    apply Meets.emit_andThen (by simpa using now)
    split
    · exact .proceed passed
    · exact .stopped passed

end Reached

section Whole

variable {D F : Type} [FloatType D] {math : Math D F} {cache : Cache F} {call : Call}
  {earlier done : List Stage} {frame : Frame F}

private theorem Reached.initial (itab : Int → Int) :
    Reached math cache call.sizes [] [] ⟨cache,itab,[]⟩ :=
  ⟨rfl,by simp,fun _ _ => rfl,by simp,fun _ _ => ⟨rfl,rfl⟩,by simp,rfl⟩

private theorem Reached.newTask (reached : Reached math cache call.sizes earlier done frame) :
    Reached math cache call.sizes (earlier ++ done) [] {frame with bound := []} where
  recorded := reached.recorded
  surfaces := by simpa only [List.append_nil] using reached.surfaces
  others := by simpa only [List.append_nil] using reached.others
  tables := by simpa only [List.append_nil] using reached.tables
  otherTables := by simpa only [List.append_nil] using reached.otherTables
  bound := by simp
  names := rfl

private theorem Reached.forget (idle : ∀ stage ∈ done, stage.created = [] ∧ stage.tables = [])
    (reached : Reached math cache call.sizes earlier done frame) :
    Reached math cache call.sizes earlier [] {frame with bound := []} := by
  have creates : done.flatMap Stage.created = [] :=
    List.flatMap_eq_nil_iff.mpr fun stage member => (idle stage member).1
  have fills : done.flatMap Stage.tables = [] :=
    List.flatMap_eq_nil_iff.mpr fun stage member => (idle stage member).2
  have next := reached.newTask
  constructor
  · exact next.recorded
  · simpa only [List.flatMap_append,creates,List.append_nil] using next.surfaces
  · simpa only [List.flatMap_append,creates,List.append_nil] using next.others
  · simpa only [List.flatMap_append,fills,List.append_nil] using next.tables
  · simpa only [List.flatMap_append,fills,List.append_nil] using next.otherTables
  · exact next.bound
  · exact next.names

private theorem srcImageSum_idle : ∀ stage ∈ srcImageSumStages, stage.created = [] ∧ stage.tables =
    [] := by
  decide

private theorem runTask_meets (task : Task) (ordered : Ordered (Allowed earlier) [] task.stages)
    (reached : Reached math cache call.sizes earlier [] {frame with bound := []}) :
    Meets (Event.Good math cache call.sizes)
      (Reached math cache call.sizes earlier task.stages)
      (fun final => ∃ performed, performed <+: task.stages ∧
        Reached math cache call.sizes earlier performed final)
      (runTask math call task frame) :=
  performAll_rule (Reached math cache call.sizes earlier) (Event.Good math cache call.sizes)
    (fun _ stage _ allowed reached => perform_reached stage allowed reached) ordered reached

/-- Whatever a call enqueues is bound to resources that are settled. -/
theorem enqueued_good (math : Math D F) (cache : Cache F) (call : Call) :
    ∀ event ∈ (gpuGaussianCorrelation math call cache).events,
      event.Good math cache call.sizes := by
  have whole : Meets (Event.Good math cache call.sizes) (fun _ => True) (fun _ => True)
      (gpuGaussianCorrelation math call cache) := by
    let begun : Frame F := ⟨cache,fun _ => 0,[]⟩
    have initial : Reached math cache call.sizes [] [] {begun with bound := []} := Reached.initial _
    have first := runTask_meets .gaussianCorrelation ordered_correlation initial
    apply (first.weaken (fun _ reached => reached) fun _ _ => trivial).andThen
    intro frame correlated
    have second := runTask_meets .srcImageSum ordered_srcImageSum correlated.newTask
    apply Meets.andThen (Meets.resume (second.weaken (fun final reached =>
      ⟨_,List.prefix_rfl,reached⟩) fun _ early => early))
    intro summed early
    obtain ⟨performed,part,reached⟩ := early
    have third := runTask_meets .finalExpImageSum ordered_finalExp
      (reached.forget fun stage member => srcImageSum_idle stage (part.subset member))
    apply Meets.andThen (Meets.resume (third.weaken (fun _ _ => trivial) fun _ _ => trivial))
    intro final _
    exact .emit (by simp [Event.Good]) trivial
  exact whole.events

end Whole

section Events

variable {D F : Type} [FloatType D] (math : Math D F)

/-- A resource is what the sizes of the call require. -/
def Binding.Matches (sizes : Sizes) : Binding F → Prop
  | .surface name extent => extent = sizes.extent name
  | .table axis values nf => values = dftTable math (sizes.pitch axis) ∧
      nf = (dftFactorize (sizes.pitch axis)).length

def Event.Matches : Event F → Prop
  | .enqueued sizes _ bound => ∀ binding ∈ bound, binding.Matches math sizes
  | _ => True

def Event.names : Event F → List (Surface ⊕ Axis)
  | .enqueued _ task _ => task.names
  | _ => []

/-- By the history, the guard of a surface lets a call keep it: what it tests is there,
and the sizes that it compares are those of the last call that reached its end. -/
def Kept (history : List (Event F)) (sizes : Sizes) (surface : Surface) : Prop :=
  (∀ other ∈ (block surface).guarded, (holder history other).isSome) ∧
    (block surface).key.changed (ended history) sizes = false

instance (history : List (Event F)) (sizes : Sizes) (surface : Surface) :
    Decidable (Kept history sizes surface) := inferInstanceAs (Decidable (_ ∧ _))

/-- A resource that a call keeps was made by a call of sizes that need the same. -/
def KeptRightly (history : List (Event F)) (sizes : Sizes) : Surface ⊕ Axis → Prop
  | .inl surface => Kept history sizes surface → ∀ creator ∈ holder history surface,
      creator.extent surface = sizes.extent surface
  | .inr axis => (ended history).pitch axis = sizes.pitch axis → ∀ creator ∈ filler history axis,
      creator.pitch axis = sizes.pitch axis

instance (history : List (Event F)) (sizes : Sizes) :
    ∀ name, Decidable (KeptRightly history sizes name)
  | .inl surface => inferInstanceAs (Decidable (Kept history sizes surface →
      ∀ creator ∈ holder history surface, creator.extent surface = sizes.extent surface))
  | .inr axis => inferInstanceAs (Decidable ((ended history).pitch axis = sizes.pitch axis →
      ∀ creator ∈ filler history axis, creator.pitch axis = sizes.pitch axis))

variable {math} {history : List (Event F)} {cache : Cache F}

private theorem guard_iff (recalls : Recalls math history cache) (sizes : Sizes)
    (surface : Surface) :
    guard cache sizes (block surface) = false ↔ Kept history sizes surface := by
  simp [guard,Kept,recalls.held,recalls.recorded,Option.isSome_iff_ne_none]

private theorem settled_matches_iff (recalls : Recalls math history cache) (sizes : Sizes)
    (binding : Binding F) (settled : binding.Settled math cache sizes) :
    binding.Matches math sizes ↔ KeptRightly history sizes binding.name := by
  cases binding with
  | surface name extent =>
    simp only [Binding.Settled,GaussianCorrelation.settled] at settled
    simp only [Binding.Matches,Binding.name,KeptRightly,← guard_iff recalls]
    cases open_ : guard cache sizes (block name) with
    | true => simpa [open_,eq_comm] using settled
    | false =>
      rw [open_,if_neg Bool.false_ne_true,recalls.held] at settled
      obtain ⟨creator,held,rfl⟩ := Option.map_eq_some_iff.mp settled
      simp [held]
  | table axis values nf =>
    obtain ⟨filled,counted⟩ := settled
    unfold settledTable at filled
    unfold settledNf at counted
    simp only [Binding.Matches,Binding.name,KeptRightly,← recalls.recorded]
    by_cases same : cache.recorded.pitch axis = sizes.pitch axis
    · rw [if_neg (not_not.mpr same)] at filled counted
      rw [recalls.table] at filled
      obtain ⟨creator,held,rfl⟩ := Option.map_eq_some_iff.mp filled
      rw [recalls.nf axis creator held] at counted
      subst counted
      simp only [same,held,Option.mem_def,Option.some.injEq,forall_eq',forall_const]
      constructor
      · intro matching
        exact dftTable_injective math matching.1
      · intro pitch
        rw [pitch]
        exact ⟨rfl,rfl⟩
    · rw [if_pos same] at filled counted
      simp only [Option.some.injEq] at filled
      simp [same,← filled,← counted]

/-- In every run, whenever a call reaches an Enqueue, the resources of its task are what
its sizes require, if and only if those that it keeps, by the history of the calls
before it, were made by calls of sizes that require the same. -/
theorem enqueue_matches_iff (calls : List Call) (tracker : Tracker F) (history : List (Event F))
    (ran : (correlations math).run start calls = some (tracker,history)) (call : Call)
    (next : Tracker F) (emitted : List (Event F))
    (stepped : (correlations math).step tracker call = some (next,emitted)) :
    ∀ event ∈ emitted, event.Matches math ↔
      ∀ name ∈ event.names, KeptRightly history call.sizes name := by
  have recalls := run_recalls calls tracker ran
  simp only [correlations,Option.ite_none_left_eq_some,Option.some.injEq,Prod.mk.injEq] at stepped
  obtain ⟨_,_,rfl⟩ := stepped
  intro event member
  have good := enqueued_good math tracker.cache call event member
  cases event with
  | enqueued sizes task bound =>
    obtain ⟨rfl,settled,names⟩ := good
    simp only [Event.Matches,Event.names,← names,List.forall_mem_map]
    constructor
    · intro matching binding bound
      exact (settled_matches_iff recalls _ binding (settled binding bound)).mp (matching binding bound)
    · intro kept binding bound
      exact (settled_matches_iff recalls _ binding (settled binding bound)).mpr (kept binding bound)
  | _ => simp [Event.Matches,Event.names]

/-- The sizes of an Enqueue and what a surface of its task is. -/
def Event.boundTo (surface : Surface) : Event F → Option (Sizes × Extent)
  | .enqueued sizes _ bound => bound.findSome? fun binding =>
      match binding with
      | .surface name extent => if name = surface then some (sizes,extent) else none
      | .table _ _ _ => none
  | _ => none

private theorem Event.Matches.boundTo {event : Event F} (matching : event.Matches math)
    {surface : Surface}
    {sizes : Sizes} {extent : Extent} (found : event.boundTo surface = some (sizes,extent)) :
    extent = sizes.extent surface := by
  cases event with
  | enqueued required task bound =>
    obtain ⟨binding,member,same⟩ := List.exists_of_findSome?_eq_some found
    have right := matching binding member
    cases binding with
    | surface name held =>
      simp only [Option.ite_none_right_eq_some,Option.some.injEq,Prod.mk.injEq] at same
      obtain ⟨rfl,rfl,rfl⟩ := same
      exact right
    | table axis values nf => simp at same
  | _ => simp [Event.boundTo] at found

end Events

def succeeding (sizes : Sizes) : Call where
  sizes := sizes
  creates _ := true
  writes _ := true
  mallocs _ := true
  createsBufferUP _ := true
  createsKernel _ := true
  addsKernel _ := true
  createsThreadSpace _ := true
  attempts _ _ := true
  enqueues _ := true

def narrow : Sizes := ⟨4,31,2,2,31⟩

def wide : Sizes := ⟨16,31,4,4,31⟩

/-- It fails after it has created a buffer. -/
def failing (sizes : Sizes) : Call :=
  {succeeding sizes with creates := fun surface => surface ≠ .pInputSurf1}

/-- The last of the calls keeps what the one before it has made: nothing happens but three
Enqueues and the end. -/
theorem enqueue_matches_kept : ∃ tracker history next emitted,
    (correlations doubleMath).run start [succeeding narrow,failing wide,succeeding wide] =
        some (tracker,history) ∧
      (correlations doubleMath).step tracker (succeeding wide) = some (next,emitted) ∧
      holder history .pOutputSurf_H_F_0 = some wide ∧ emitted.length = 4 ∧
      emitted.filterMap (Event.boundTo .pOutputSurf_H_F_0) = [(wide,.buffer 3968)] ∧
      ∀ event ∈ emitted, event.Matches doubleMath := by
  have evaluated : (((correlations doubleMath).run start
      [succeeding narrow,failing wide,succeeding wide]).bind fun ran =>
        ((correlations doubleMath).step ran.1 (succeeding wide)).map fun stepped =>
          (holder ran.2 .pOutputSurf_H_F_0,stepped.2.length,
            stepped.2.filterMap (Event.boundTo .pOutputSurf_H_F_0),
            decide (∀ event ∈ stepped.2, ∀ name ∈ event.names, KeptRightly ran.2 wide name))) =
      some (some wide,4,[(wide,.buffer 3968)],true) := by
    decide +kernel
  obtain ⟨⟨tracker,history⟩,ran,evaluated⟩ := Option.bind_eq_some_iff.mp evaluated
  obtain ⟨⟨next,emitted⟩,stepped,evaluated⟩ := Option.map_eq_some_iff.mp evaluated
  simp only [Prod.mk.injEq,decide_eq_true_eq] at evaluated
  obtain ⟨held,count,bound,kept⟩ := evaluated
  refine ⟨tracker,history,next,emitted,ran,stepped,held,count,bound,?_⟩
  intro event member
  exact (enqueue_matches_iff _ tracker history ran _ next emitted stepped event member).mpr
    (kept event member)

/-- The failing call has left a buffer of its own sizes, and the next one keeps it. -/
theorem enqueue_stale : ∃ final trace,
    (correlations doubleMath).run start [succeeding narrow,failing wide,succeeding narrow] =
        some (final,trace) ∧ ¬∀ event ∈ trace, event.Matches doubleMath := by
  have evaluated : ((correlations doubleMath).run start
      [succeeding narrow,failing wide,succeeding narrow]).map (fun ran =>
        ran.2.filterMap (Event.boundTo .pOutputSurf_H_F_0)) =
      some [(narrow,.buffer 992),(narrow,.buffer 3968)] := by
    decide +kernel
  obtain ⟨⟨final,trace⟩,ran,bound⟩ := Option.map_eq_some_iff.mp evaluated
  refine ⟨final,trace,ran,?_⟩
  intro matching
  have member : (narrow,Extent.buffer 3968) ∈
      trace.filterMap (Event.boundTo .pOutputSurf_H_F_0) := by
    rw [bound]
    simp
  obtain ⟨event,reached,found⟩ := List.mem_filterMap.mp member
  have right := (matching event reached).boundTo found
  revert right
  decide

end VideoAnalytics.GaussianCorrelation
