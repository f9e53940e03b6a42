import VideoAnalytics.FeatureKernels

/-! What the kernels are bound to at each Enqueue, over whole runs: the objects that the
tracker points to are live and its own, and made for the template and the VA surface. -/
namespace VideoAnalytics.FeatureKernels
open EarlyReturn Handles

/-- Nothing fails in the call that a later call would build on. -/
structure Call.Sound (call : Call) : Prop where
  width : 0 < call.tempWidth
  height : 0 < call.tempHeight
  allocates : call.allocates
  sampler : call.setsUpSampler
  renews : ∀ id, call.renews id
  adds : ∀ kernel, call.adds kernel

/-- Nothing fails that leaves an object behind without ending the process. -/
structure Call.Completes (call : Call) : Prop where
  surfaceIndex : call.createsSurfaceIndex
  queue : call.createsQueue

/-- The sizes of the template are in the range of unsigned short. -/
structure Call.Short (call : Call) : Prop where
  height : call.tempHeight < 65536
  outputStride : call.tempWidth.tdiv 4 * 27 < 65536

/-- What a member of the tracker can point to. -/
inductive Slot
  | sampler
  | output (output : Output)
  | surface (vaSurfaceID : Nat)
  | index (vaSurfaceID : Nat)
  deriving DecidableEq, Repr

def Members.held (members : Members) : Slot → Option Nat
  | .sampler => members.sampler8x8
  | .output output => members.outputs output
  | .surface id => (members.inputs.lookup id).bind Input.surfaceNV12
  | .index id => (members.inputs.lookup id).bind Input.surfaceIndex

def allKernels : List Kernel := [.feature,.process,.normalizePCA]

/-- What is enqueued for a call is made for its template and its VA surface, and is live. -/
structure Bound (call : Call) (task : List Kernel) (arguments : Arguments)
    (threadswidth threadsheight : Int) (live : List (Nat × Object)) : Prop where
  task : task = allKernels
  inputWidth : arguments.inputWidth = lowWord call.tempWidth
  inputHeight : arguments.inputHeight = lowWord call.tempHeight
  outputStride : arguments.outputStride = lowWord (call.tempWidth.tdiv 4 * 27)
  sizes : call.Short → arguments.inputWidth = call.tempWidth ∧
    arguments.inputHeight = call.tempHeight ∧ arguments.outputStride = call.tempWidth.tdiv 4 * 27
  offsets : arguments.offsets = call.offsets
  threadswidth : threadswidth = call.tempWidth.tdiv 4
  threadsheight : threadsheight = call.tempHeight.tdiv 4
  threadCount : arguments.threadCount = call.tempWidth.tdiv 4 * call.tempHeight.tdiv 4
  surfaces : ∀ kernel place output, outputArgument kernel place = some output →
    ∃ handle, arguments.surfaces kernel place = some handle ∧
      (handle,output.object call.tempWidth call.tempHeight) ∈ live
  sampler : ∃ handle, arguments.samplerIndex = some handle ∧
    (handle,.sampler8x8 call.tempWidth call.tempHeight) ∈ live
  input : ∃ surface index, (surface,.vaSurface call.vaSurfaceID) ∈ live ∧
    arguments.surfaceIndex = some index ∧ (index,.sampler8x8Surface surface) ∈ live

def Event.Good : Event → Prop
  | .enqueue call task arguments threadswidth threadsheight live =>
    Bound call task arguments threadswidth threadsheight live
  | .readSurface call newFeature live =>
    ∃ handle, newFeature = some handle ∧
      (handle,Output.newFeature.object call.tempWidth call.tempHeight) ∈ live

/-- A VA surface has its sampler surface. -/
def Sampled (device : Device Object) (id : Nat) (input : Input) : Prop :=
  ∃ surface, input.surfaceNV12 = some surface ∧ Points device (some surface) (.vaSurface id) ∧
    Points device input.surfaceIndex (.sampler8x8Surface surface)

/-- What holds throughout the calls, and, as long as they complete, that nothing is lost. -/
structure Kept (completing : Prop) (members : Members) : Prop where
  owned : Owned members.device members.held
  sampled : ∀ id input, members.inputs.lookup id = some input → input.samplerIndex ≠ none →
    Sampled members.device id input
  task : members.task = none ∨ members.task = some allKernels
  tight : completing → Tight members.device members.held
  complete : completing → ∀ id input, members.inputs.lookup id = some input →
    input.samplerIndex ≠ none

/-- The sampler, the output surfaces and the arguments are made for a template. -/
structure Made (width height : Int) (members : Members) : Prop where
  templateWidth : members.templateWidth = width
  templateHeight : members.templateHeight = height
  sampler : Points members.device members.sampler8x8 (.sampler8x8 width height)
  outputs : ∀ output, Points members.device (members.outputs output) (output.object width height)
  inputWidth : members.arguments.inputWidth = lowWord width
  inputHeight : members.arguments.inputHeight = lowWord height
  outputStride : members.arguments.outputStride = lowWord (width.tdiv 4 * 27)
  threadCount : members.arguments.threadCount = width.tdiv 4 * height.tdiv 4
  surfaces : ∀ kernel place,
    members.arguments.surfaces kernel place = (outputArgument kernel place).bind members.outputs
  threadswidth : members.threadswidth = width.tdiv 4
  threadsheight : members.threadsheight = height.tdiv 4

/-- The sampler surface of a VA surface, if it has one, is used with the sampler. -/
def Current (members : Members) (id : Nat) : Prop :=
  ∀ input, members.inputs.lookup id = some input → input.samplerIndex ≠ none →
    input.samplerIndex = members.sampler8x8

structure Ready (completing : Prop) (width height : Int) (members : Members) : Prop where
  kept : Kept completing members
  made : Made width height members
  current : ∀ id, Current members id

/-- Between two calls: before the first one, or ready for the recorded template. -/
structure Between (completing : Prop) (members : Members) : Prop where
  kept : Kept completing members
  template : members.templateWidth = -1 ∨
    Ready completing members.templateWidth members.templateHeight members

/-- What a call leaves behind. -/
def Left (completing : Prop) (members : Members) : Prop :=
  members.exited ∨ Between completing members

private theorem Call.Short.lowWord_sizes {call : Call} (short : call.Short) (sound : call.Sound) :
    lowWord call.tempWidth = call.tempWidth ∧ lowWord call.tempHeight = call.tempHeight ∧
      lowWord (call.tempWidth.tdiv 4 * 27) = call.tempWidth.tdiv 4 * 27 := by
  obtain ⟨height,outputStride⟩ := short
  have width := sound.width
  have positive := sound.height
  rw [Int.tdiv_eq_ediv_of_nonneg width.le] at outputStride ⊢
  unfold lowWord
  refine ⟨?_,?_,?_⟩ <;> omega

private theorem lookup_setInput (id : Nat) (input : Input) (inputs : List (Nat × Input))
    (key : Nat) :
    (setInput id input inputs).lookup key = if key = id then some input else inputs.lookup key := by
  have cons (head : Nat) (first : Input) (rest : List (Nat × Input)) :
      ((head,first) :: rest).lookup key = if key = head then some first else rest.lookup key := by
    by_cases here : key = head
    · simp [here]
    · simp [List.lookup_cons,beq_false_of_ne here,here]
  induction inputs with
  | nil => simp [setInput,cons]
  | cons entry rest ih =>
    obtain ⟨head,old⟩ := entry
    unfold setInput
    by_cases below : id < head
    · rw [if_pos below,cons]
    · by_cases same : id = head
      · rw [if_neg below,if_pos same,cons,cons,same]
        by_cases here : key = head <;> simp [here]
      · rw [if_neg below,if_neg same,cons,cons,ih]
        by_cases here : key = head
        · have other : key ≠ id := fun equal => same (equal.symm.trans here)
          simp [here,Ne.symm same]
        · simp [here]

private theorem setInput_setInput (id : Nat) (input first : Input) (inputs : List (Nat × Input)) :
    setInput id input (setInput id first inputs) = setInput id input inputs := by
  induction inputs with
  | nil => simp [setInput]
  | cons entry rest ih =>
    obtain ⟨head,old⟩ := entry
    by_cases below : id < head
    · simp [setInput,below]
    · by_cases same : id = head
      · simp [setInput,same]
      · simp [setInput,below,same,ih]

private theorem held_setInput (members : Members) (device : Device Object) (id : Nat)
    (input : Input) :
    ({members with device := device, inputs := setInput id input members.inputs} : Members).held =
      Function.update (Function.update members.held (.surface id) input.surfaceNV12) (.index id)
        input.surfaceIndex := by
  funext slot
  cases slot with
  | sampler => simp [Members.held]
  | output output => simp [Members.held]
  | surface key =>
    by_cases here : key = id <;> simp [Members.held,lookup_setInput,here]
  | index key =>
    by_cases here : key = id <;> simp [Members.held,lookup_setInput,here]

private theorem held_outputs (members : Members) (device : Device Object) (output : Output)
    (handle : Option Nat) :
    ({members with
      device := device
      outputs := Function.update members.outputs output handle} : Members).held =
      Function.update members.held (.output output) handle := by
  funext slot
  cases slot with
  | output other =>
    by_cases here : other = output <;> simp [Members.held,here]
  | _ => simp [Members.held]

private theorem held_sampler8x8 (members : Members) (device : Device Object) (handle : Option Nat) :
    ({members with device := device, sampler8x8 := handle} : Members).held =
      Function.update members.held .sampler handle := by
  funext slot
  cases slot <;> simp [Members.held]

private theorem held_surface {members : Members} {id : Nat} {input : Input}
    (known : members.inputs.lookup id = some input) :
    members.held (.surface id) = input.surfaceNV12 := by
  simp [Members.held,known]

private theorem held_index {members : Members} {id : Nat} {input : Input}
    (known : members.inputs.lookup id = some input) :
    members.held (.index id) = input.surfaceIndex := by
  simp [Members.held,known]

section Steps

variable {completing : Prop} {members next : Members}

/-- What another slot holds outlives the renewal of a slot. -/
theorem Sampled.replace (slot : Slot) (object : Object) {id : Nat} {input : Input}
    (sampled : Sampled members.device id input)
    (owned : Owned members.device members.held) (known : members.inputs.lookup id = some input)
    (surface : Slot.surface id ≠ slot) (index : Slot.index id ≠ slot) :
    Sampled ((members.device.release (members.held slot)).create object) id input := by
  obtain ⟨handle,holds,onSurface,onIndex⟩ := sampled
  rw [← holds,← held_surface known] at onSurface
  rw [← held_index known] at onIndex
  have surfaceKept := (Points.release _ _ onSurface owned surface).create object
  have indexKept := (Points.release _ _ onIndex owned index).create object
  rw [held_surface known,holds] at surfaceKept
  rw [held_index known] at indexKept
  exact ⟨handle,holds,surfaceKept,indexKept⟩

/-- The sampler or an output surface is made anew. -/
theorem Kept.replace (slot : Slot) {object : Object} (kept : Kept completing members)
    (device : next.device = (members.device.release (members.held slot)).create object)
    (held : next.held = Function.update members.held slot
      (some (members.device.release (members.held slot)).next))
    (inputs : next.inputs = members.inputs) (task : next.task = members.task)
    (surface : ∀ id, Slot.surface id ≠ slot) (index : ∀ id, Slot.index id ≠ slot) :
    Kept completing next where
  owned := by
    rw [device,held]
    exact kept.owned.replace slot
  sampled id input known created := by
    rw [inputs] at known
    rw [device]
    exact (kept.sampled id input known created).replace slot object kept.owned known (surface id)
      (index id)
  task := task ▸ kept.task
  tight completes := by
    rw [device,held]
    exact (kept.tight completes).replace slot
  complete completes id input known := by
    rw [inputs] at known
    exact kept.complete completes id input known

/-- Within refreshKernels: the sampler is there, and the surfaces made so far. -/
structure Refreshing (completing : Prop) (call : Call) (done : List Output)
    (members : Members) : Prop where
  kept : Kept completing members
  templateWidth : members.templateWidth = call.tempWidth
  templateHeight : members.templateHeight = call.tempHeight
  sampler : Points members.device members.sampler8x8 (.sampler8x8 call.tempWidth call.tempHeight)
  outputs : ∀ output ∈ done,
    Points members.device (members.outputs output) (output.object call.tempWidth call.tempHeight)

private theorem exit_left : Safe Event.Good (fun _ => False) (Left completing) (exit members) :=
  .stopped (.inl rfl)

private theorem refreshOutput_safe (call : Call) (done : List Output) (output : Output)
    (refreshing : Refreshing completing call done members) :
    Safe Event.Good (Refreshing completing call (done ++ [output])) (Left completing)
      (refreshOutput call output members) := by
  unfold refreshOutput
  by_cases creates : call.createsOutput output
  · rw [if_pos creates]
    have kept := refreshing.kept
    refine .proceed ⟨kept.replace (.output output) rfl (held_outputs ..) rfl rfl
      (by simp) (by simp),refreshing.templateWidth,refreshing.templateHeight,?_,?_⟩
    · exact (Points.release (.output output) .sampler refreshing.sampler kept.owned
        (by simp)).create _
    · intro other member
      by_cases here : other = output
      · subst here
        simp
      · have before := refreshing.outputs other (by simpa [here] using member)
        have still := (Points.release (.output output) (.output other) before kept.owned
          (by simpa using here)).create (output.object call.tempWidth call.tempHeight)
        dsimp only
        rw [Function.update_of_ne here]
        exact still
  · rw [if_neg creates]
    exact exit_left.weaken fun _ => False.elim

private theorem refreshKernels_safe (call : Call) (sound : call.Sound)
    (kept : Kept completing members) (templateWidth : members.templateWidth = call.tempWidth)
    (templateHeight : members.templateHeight = call.tempHeight) :
    Safe Event.Good (fun next => Kept completing next ∧ Made call.tempWidth call.tempHeight next)
      (Left completing) (refreshKernels call members) := by
  unfold refreshKernels
  rw [if_pos sound.sampler]
  have begins : Refreshing completing call []
      {members with
        device := (members.device.release members.sampler8x8).create
          (.sampler8x8 call.tempWidth call.tempHeight)
        sampler8x8 := some (members.device.release members.sampler8x8).next} :=
    ⟨kept.replace .sampler rfl (held_sampler8x8 ..) rfl rfl (by simp) (by simp),
      templateWidth,templateHeight,.created,by simp⟩
  apply Safe.andThen
    (Safe.performAll _ (fun done output _ => refreshOutput_safe call done output) begins)
  intro refreshed refreshing
  refine .proceed ⟨⟨refreshing.kept.owned,refreshing.kept.sampled,refreshing.kept.task,
    refreshing.kept.tight,refreshing.kept.complete⟩,?_⟩
  exact {
    templateWidth := refreshing.templateWidth
    templateHeight := refreshing.templateHeight
    sampler := refreshing.sampler
    outputs output := refreshing.outputs output (by cases output <;> decide)
    inputWidth := rfl
    inputHeight := rfl
    outputStride := rfl
    threadCount := rfl
    surfaces _ _ := rfl
    threadswidth := rfl
    threadsheight := rfl}

/-- A VA surface gets a sampler surface: what is not the old one stays. -/
theorem Kept.setInput {device : Device Object} {id surface sampler index : Nat}
    (kept : Kept completing members)
    (frame : ∀ slot object, slot ≠ Slot.index id →
      Points members.device (members.held slot) object → Points device (members.held slot) object)
    (owned : Owned device (Function.update (Function.update members.held (.surface id) (some surface))
      (.index id) (some index)))
    (tight : completing → Tight device (Function.update
      (Function.update members.held (.surface id) (some surface)) (.index id) (some index)))
    (onSurface : Points device (some surface) (.vaSurface id))
    (onIndex : Points device (some index) (.sampler8x8Surface surface)) :
    Kept completing {members with
      device := device
      inputs := setInput id ⟨some surface,some sampler,some index⟩ members.inputs} where
  owned := by rwa [held_setInput]
  sampled key input known created := by
    dsimp only at known
    rw [lookup_setInput] at known
    by_cases here : key = id
    · rw [if_pos here,Option.some.injEq] at known
      subst known here
      exact ⟨surface,rfl,onSurface,onIndex⟩
    · rw [if_neg here] at known
      obtain ⟨handle,holds,first,second⟩ := kept.sampled key input known created
      rw [← holds,← held_surface known] at first
      rw [← held_index known] at second
      have firstKept := frame _ _ (by simp) first
      have secondKept := frame _ _ (by simpa using here) second
      rw [held_surface known,holds] at firstKept
      rw [held_index known] at secondKept
      exact ⟨handle,holds,firstKept,secondKept⟩
  task := kept.task
  tight completes := by
    rw [held_setInput]
    exact tight completes
  complete completes key input known := by
    dsimp only at known
    rw [lookup_setInput] at known
    by_cases here : key = id
    · rw [if_pos here,Option.some.injEq] at known
      simp [← known]
    · rw [if_neg here] at known
      exact kept.complete completes key input known

private theorem Made.frame (id : Nat) {device : Device Object} {inputs : List (Nat × Input)}
    {width height : Int} (made : Made width height members)
    (frame : ∀ slot object, slot ≠ Slot.index id →
      Points members.device (members.held slot) object → Points device (members.held slot) object) :
    Made width height {members with device := device, inputs := inputs} :=
  {made with
    sampler := frame .sampler _ (by simp) made.sampler
    outputs := fun output => frame (.output output) _ (by simp) (made.outputs output)}

private theorem Current.setInput {device : Device Object} {id surface sampler index key : Nat}
    (current : key ≠ id → Current members key) (live : members.sampler8x8 = some sampler) :
    Current {members with
      device := device
      inputs := setInput id ⟨some surface,some sampler,some index⟩ members.inputs} key := by
  intro input known created
  dsimp only at known ⊢
  rw [lookup_setInput] at known
  by_cases here : key = id
  · rw [if_pos here,Option.some.injEq] at known
    rw [← known,live]
  · rw [if_neg here] at known
    exact current here input known created

/-- Within the loop over the pool: the entries of the keys so far are current. -/
structure Renewing (completing : Prop) (call : Call) (keys done : List Nat)
    (members : Members) : Prop where
  kept : Kept completing members
  made : Made call.tempWidth call.tempHeight members
  current : ∀ id ∈ done, Current members id
  keys : ∀ id input, members.inputs.lookup id = some input → id ∈ keys

private theorem Renewing.skip {call : Call} {keys done : List Nat} {id : Nat}
    (renewing : Renewing completing call keys done members) (current : Current members id) :
    Renewing completing call keys (done ++ [id]) members where
  kept := renewing.kept
  made := renewing.made
  current other member := by
    rcases List.mem_append.mp member with before | here
    · exact renewing.current other before
    · rwa [List.mem_singleton.mp here]
  keys := renewing.keys

private theorem renew_safe (call : Call) (sound : call.Sound) (keys done : List Nat) (id : Nat)
    (renewing : Renewing completing call keys done members) :
    Safe Event.Good (Renewing completing call keys (done ++ [id])) (Left completing)
      (renew call id members) := by
  have kept := renewing.kept
  have made := renewing.made
  cases known : members.inputs.lookup id with
  | none =>
    simp only [renew,known]
    apply Safe.proceed (renewing.skip _)
    intro input found
    simp [known] at found
  | some input =>
    by_cases absent : input.samplerIndex = none
    · simp only [renew,known,if_pos absent]
      apply Safe.proceed (renewing.skip _)
      intro other found created
      rw [known,Option.some.injEq] at found
      exact absurd absent (found ▸ created)
    · obtain ⟨surface,holds,onSurface,-⟩ := kept.sampled id input known absent
      obtain ⟨sampler,live,-⟩ := made.sampler
      have renewed : renew call id members = proceed {members with
          device := (members.device.release (members.held (.index id))).create
            (.sampler8x8Surface surface)
          inputs := setInput id ⟨some surface,some sampler,
            some (members.device.release (members.held (.index id))).next⟩ members.inputs} := by
        simp [renew,known,absent,live,holds,sound.renews id,held_index known]
      have frame (slot : Slot) (object : Object) (differs : slot ≠ .index id)
          (points : Points members.device (members.held slot) object) :
          Points ((members.device.release (members.held (.index id))).create
            (.sampler8x8Surface surface)) (members.held slot) object :=
        (Points.release _ _ points kept.owned differs).create _
      have same : Function.update members.held (.surface id) (some surface) = members.held := by
        rw [← holds,← held_surface known,Function.update_eq_self]
      rw [renewed]
      refine .proceed ⟨kept.setInput frame ?_ ?_ ?_ .created,made.frame id frame,?_,?_⟩
      · rw [same]
        exact kept.owned.replace _
      · intro completes
        rw [same]
        exact (kept.tight completes).replace _
      · rw [← holds,← held_surface known] at onSurface ⊢
        exact frame _ _ (by simp) onSurface
      · intro key member
        refine Current.setInput (fun differs => renewing.current key ?_) live
        simpa [differs] using member
      · intro key other found
        dsimp only at found
        rw [lookup_setInput] at found
        by_cases here : key = id
        · exact here ▸ renewing.keys id input known
        · rw [if_neg here] at found
          exact renewing.keys key other found

private theorem resize_safe (call : Call) (sound : call.Sound)
    (between : Between completing members) :
    Safe Event.Good (Ready completing call.tempWidth call.tempHeight) (Left completing)
      (resize call members) := by
  unfold resize
  by_cases differs : call.tempWidth ≠ members.templateWidth ∨ call.tempHeight ≠ members.templateHeight
  · rw [if_pos differs]
    simp only [if_pos sound.allocates]
    have kept := between.kept
    have begins : Kept completing {members with
        templateWidth := call.tempWidth, templateHeight := call.tempHeight} :=
      ⟨kept.owned,kept.sampled,kept.task,kept.tight,kept.complete⟩
    apply Safe.andThen (refreshKernels_safe call sound begins rfl rfl)
    intro refreshed made
    have loop : Renewing completing call (refreshed.inputs.map Prod.fst).reverse [] refreshed := by
      refine ⟨made.1,made.2,by simp,?_⟩
      intro id input known
      obtain ⟨before,after,same,-⟩ := List.lookup_eq_some_iff.mp known
      simp [same]
    apply (Safe.performAll _ (fun done id _ => renew_safe call sound _ done id) loop).weaken
    intro final renewing
    refine ⟨renewing.kept,renewing.made,fun id input known => ?_⟩
    exact renewing.current id (by simpa using renewing.keys id input known) input known
  · rw [if_neg differs]
    rw [not_or,not_not,not_not] at differs
    have width := sound.width
    rcases between.template with blank | ready
    · omega
    · rw [differs.1,differs.2]
      exact .proceed ready

private theorem Ready.between {width height : Int} (ready : Ready completing width height members) :
    Between completing members := by
  refine ⟨ready.kept,.inr ?_⟩
  rw [ready.made.templateWidth,ready.made.templateHeight]
  exact ready

private theorem absent_samplerIndex {id : Nat}
    (absent : ¬∃ input, members.inputs.lookup id = some input ∧ input.samplerIndex ≠ none) :
    ((members.inputs.lookup id).getD ⟨none,none,none⟩).samplerIndex = none := by
  cases known : members.inputs.lookup id with
  | none => rfl
  | some input =>
    by_contra created
    exact absent ⟨input,known,created⟩

/-- A VA surface without a sampler surface gets its surface and then that. -/
theorem addInput_absent (call : Call) {sampler : Nat} (live : members.sampler8x8 = some sampler)
    (absent : ((members.inputs.lookup call.vaSurfaceID).getD ⟨none,none,none⟩).samplerIndex = none) :
    addInput call members =
      let surface := members.device.next
      let device := members.device.create (.vaSurface call.vaSurfaceID)
      if call.createsInput then
        if call.createsSurfaceIndex then
          proceed {members with
            device := device.create (.sampler8x8Surface surface)
            inputs := setInput call.vaSurfaceID ⟨some surface,some sampler,some device.next⟩
              members.inputs}
        else stopped .returned {members with
          device := device
          inputs := setInput call.vaSurfaceID
            {(members.inputs.lookup call.vaSurfaceID).getD ⟨none,none,none⟩ with
              surfaceNV12 := some surface} members.inputs}
      else exit members := by
  simp [addInput,absent,live,setInput_setInput]

/-- Without its sampler surface the VA surface stays unusable, and its surface is lost to the
next attempt. -/
theorem Ready.unfinished {id : Nat} {width height : Int} (ready : Ready completing width height members)
    (absent : ((members.inputs.lookup id).getD ⟨none,none,none⟩).samplerIndex = none)
    (incomplete : ¬completing) :
    Ready completing width height {members with
      device := members.device.create (.vaSurface id)
      inputs := setInput id
        {(members.inputs.lookup id).getD ⟨none,none,none⟩ with
          surfaceNV12 := some members.device.next} members.inputs} := by
  have kept := ready.kept
  have found (key : Nat) (input : Input) (created : input.samplerIndex ≠ none)
      (known : (setInput id {(members.inputs.lookup id).getD ⟨none,none,none⟩ with
        surfaceNV12 := some members.device.next} members.inputs).lookup key = some input) :
      members.inputs.lookup key = some input := by
    rw [lookup_setInput] at known
    by_cases here : key = id
    · rw [if_pos here,Option.some.injEq] at known
      rw [← known] at created
      exact absurd absent created
    · rwa [if_neg here] at known
  have index : ((members.inputs.lookup id).getD ⟨none,none,none⟩).surfaceIndex =
      members.held (.index id) := by
    cases known : members.inputs.lookup id <;> simp [Members.held,known]
  refine ⟨⟨?_,?_,kept.task,fun completes => absurd completes incomplete,
    fun completes => absurd completes incomplete⟩,?_,?_⟩
  · rw [held_setInput]
    dsimp only
    have same : members.held (.index id) =
        Function.update members.held (.surface id) (some members.device.next) (.index id) := by simp
    rw [index,same,Function.update_eq_self]
    exact kept.owned.create _ _
  · intro key input known created
    obtain ⟨surface,holds,onSurface,onIndex⟩ :=
      kept.sampled key input (found key input created known) created
    exact ⟨surface,holds,onSurface.create _,onIndex.create _⟩
  · exact ready.made.frame id fun _ _ _ points => points.create _
  · intro key input known created
    exact ready.current key input (found key input created known) created

private theorem addInput_safe (call : Call) (completes : completing → call.Completes)
    (ready : Ready completing call.tempWidth call.tempHeight members) :
    Safe Event.Good (fun next => Ready completing call.tempWidth call.tempHeight next ∧
        ∃ input, next.inputs.lookup call.vaSurfaceID = some input ∧ input.samplerIndex ≠ none)
      (Left completing) (addInput call members) := by
  have kept := ready.kept
  have made := ready.made
  obtain ⟨sampler,live,-⟩ := made.sampler
  by_cases present : ∃ input, members.inputs.lookup call.vaSurfaceID = some input ∧
      input.samplerIndex ≠ none
  · obtain ⟨input,known,created⟩ := present
    simp only [addInput,known,Option.getD_some,if_pos created]
    exact .proceed ⟨ready,input,known,created⟩
  · have absent := absent_samplerIndex present
    rw [addInput_absent call live absent]
    dsimp only
    split_ifs with input index
    · have frame (slot : Slot) (object : Object) (_ : slot ≠ .index call.vaSurfaceID)
          (points : Points members.device (members.held slot) object) :
          Points ((members.device.create (.vaSurface call.vaSurfaceID)).create
            (.sampler8x8Surface members.device.next)) (members.held slot) object :=
        (points.create _).create _
      refine .proceed ⟨⟨kept.setInput frame ((kept.owned.create _ _).create _ _) ?_
        (Points.created.create _) .created,made.frame _ frame,?_⟩,?_⟩
      · intro completes
        have empty (slot : Slot) (here : slot = .surface call.vaSurfaceID ∨
            slot = .index call.vaSurfaceID) : members.held slot = none := by
          have unknown : members.inputs.lookup call.vaSurfaceID = none := by
            by_contra known
            obtain ⟨input,known⟩ := Option.ne_none_iff_exists'.mp known
            exact present ⟨input,known,kept.complete completes _ _ known⟩
          rcases here with rfl | rfl <;> simp [Members.held,unknown]
        apply ((kept.tight completes).create _ _ (empty _ (.inl rfl))).create
        rw [Function.update_of_ne (by simp)]
        exact empty _ (.inr rfl)
      · intro key
        exact Current.setInput (fun _ => ready.current key) live
      · refine ⟨⟨some members.device.next,some sampler,
          some (members.device.create (.vaSurface call.vaSurfaceID)).next⟩,?_,by simp⟩
        simp [lookup_setInput]
    · have incomplete : ¬completing := fun holds => absurd (completes holds).surfaceIndex index
      apply Safe.stopped
      exact .inr (ready.unfinished absent incomplete).between
    · exact exit_left.weaken fun _ => False.elim

private theorem Ready.congr {width height : Int} {device other : Device Object}
    (same : other.live = device.live)
    (ready : Ready completing width height {members with device := device}) :
    Ready completing width height {members with device := other} where
  kept := {
    owned := ready.kept.owned.congr same
    sampled := by
      intro id input known created
      obtain ⟨surface,holds,onSurface,onIndex⟩ := ready.kept.sampled id input known created
      exact ⟨surface,holds,onSurface.congr same,onIndex.congr same⟩
    task := ready.kept.task
    tight completes := (ready.kept.tight completes).congr same
    complete := ready.kept.complete}
  made := {ready.made with
    sampler := ready.made.sampler.congr same
    outputs := fun output => (ready.made.outputs output).congr same}
  current := ready.current

/-- A thread space that is left behind does no harm but to stay. -/
theorem Ready.abandon (object : Object) {width height : Int}
    (ready : Ready completing width height members)
    (incomplete : ¬completing) :
    Ready completing width height {members with device := members.device.create object} where
  kept := {
    owned := ready.kept.owned.extend
    sampled := by
      intro id input known created
      obtain ⟨surface,holds,onSurface,onIndex⟩ := ready.kept.sampled id input known created
      exact ⟨surface,holds,onSurface.create _,onIndex.create _⟩
    task := ready.kept.task
    tight completes := absurd completes incomplete
    complete completes := absurd completes incomplete}
  made := {ready.made with
    sampler := ready.made.sampler.create _
    outputs := fun output => (ready.made.outputs output).create _}
  current := ready.current

/-- Within launch, on a device with a thread space beside what was there. -/
structure Launching (completing : Prop) (call : Call) (device : Device Object)
    (members : Members) : Prop where
  opened : members.device = device.create (.threadSpace members.threadswidth members.threadsheight)
  ready : Ready completing call.tempWidth call.tempHeight {members with device := device}
  offsets : members.arguments.offsets = call.offsets
  input : ∃ input, members.inputs.lookup call.vaSurfaceID = some input ∧
    input.samplerIndex ≠ none ∧ members.arguments.surfaceIndex = input.surfaceIndex ∧
      members.arguments.samplerIndex = input.samplerIndex

private theorem createQueue_safe (call : Call) (completes : completing → call.Completes)
    {device : Device Object} (launching : Launching completing call device members) :
    Safe Event.Good (Launching completing call device) (Left completing)
      (createQueue call members) := by
  unfold createQueue
  split_ifs with known creates
  · exact .proceed launching
  · have ready := launching.ready
    exact .proceed ⟨launching.opened,⟨⟨ready.kept.owned,ready.kept.sampled,ready.kept.task,
      ready.kept.tight,ready.kept.complete⟩,{ready.made with},ready.current⟩,launching.offsets,
      launching.input⟩
  · have incomplete : ¬completing := fun holds => absurd (completes holds).queue creates
    have abandoned := (launching.ready.abandon (.threadSpace members.threadswidth
      members.threadsheight) incomplete).between
    apply Safe.stopped
    right
    have same : {members with device := device.create (.threadSpace members.threadswidth
      members.threadsheight)} = members := by rw [← launching.opened]
    exact same ▸ abandoned

private theorem createTask_safe (call : Call) (sound : call.Sound) {device : Device Object}
    (launching : Launching completing call device members) :
    Safe Event.Good
      (fun next => Launching completing call device next ∧ next.task = some allKernels)
      (Left completing) (createTask call members) := by
  have ready := launching.ready
  unfold createTask
  split_ifs with known creates
  · have added : performAll (addKernel call) [.feature,.process,.normalizePCA]
        {members with task := some []} = proceed {members with task := some allKernels} := by
      simp [performAll,addKernel,sound.adds,Outcome.andThen,proceed,allKernels]
    rw [added]
    exact .proceed ⟨⟨launching.opened,⟨⟨ready.kept.owned,ready.kept.sampled,.inr rfl,
      ready.kept.tight,ready.kept.complete⟩,{ready.made with},ready.current⟩,launching.offsets,
      launching.input⟩,rfl⟩
  · exact exit_left.weaken fun _ => False.elim
  · exact .proceed ⟨launching,ready.kept.task.resolve_left known⟩

private theorem Launching.bound {call : Call} (sound : call.Sound) {device : Device Object}
    (launching : Launching completing call device members)
    (task : members.task = some allKernels) :
    Bound call (members.task.getD []) members.arguments members.threadswidth members.threadsheight
      members.device.live where
  task := by simp [task]
  inputWidth := launching.ready.made.inputWidth
  inputHeight := launching.ready.made.inputHeight
  outputStride := launching.ready.made.outputStride
  sizes short := by
    have made := launching.ready.made
    rw [made.inputWidth,made.inputHeight,made.outputStride]
    exact short.lowWord_sizes sound
  offsets := launching.offsets
  threadswidth := launching.ready.made.threadswidth
  threadsheight := launching.ready.made.threadsheight
  threadCount := launching.ready.made.threadCount
  surfaces kernel place output named := by
    have made := launching.ready.made
    obtain ⟨handle,holds,member⟩ := made.outputs output
    refine ⟨handle,?_,?_⟩
    · rw [made.surfaces kernel place,named]
      exact holds
    · rw [launching.opened]
      exact mem_create.mpr (.inr member)
  sampler := by
    obtain ⟨input,known,created,-,samplerIndex⟩ := launching.input
    obtain ⟨handle,holds,member⟩ := launching.ready.made.sampler
    refine ⟨handle,?_,?_⟩
    · rw [samplerIndex,launching.ready.current _ input known created]
      exact holds
    · rw [launching.opened]
      exact mem_create.mpr (.inr member)
  input := by
    obtain ⟨input,known,created,surfaceIndex,-⟩ := launching.input
    obtain ⟨surface,-,onSurface,index,sampled,onIndex⟩ :=
      launching.ready.kept.sampled _ input known created
    refine ⟨surface,index,?_,by rw [surfaceIndex,sampled],?_⟩
    · rw [launching.opened]
      exact mem_create.mpr (.inr (points_some.mp onSurface))
    · rw [launching.opened]
      exact mem_create.mpr (.inr onIndex)

private theorem enqueue_safe (call : Call) (sound : call.Sound) {device : Device Object}
    (launching : Launching completing call device members)
    (task : members.task = some allKernels) :
    Safe Event.Good (Between completing) (Left completing)
      (enqueue call device.next members) := by
  have bound := launching.bound sound task
  unfold enqueue
  split_ifs with enqueues
  · refine ⟨⟨?_,?_,by simp⟩,by simp⟩
    · intro event member
      rcases List.mem_cons.mp member with rfl | member
      · exact bound
      · rw [List.mem_singleton.mp member]
        obtain ⟨handle,holds,live⟩ := launching.ready.made.outputs .newFeature
        refine ⟨handle,holds,mem_create.mpr (.inr ?_)⟩
        rw [launching.opened]
        exact mem_create.mpr (.inr live)
    · intro _
      have emptied := destroy_pair device
        (.threadSpace members.threadswidth members.threadsheight) .event
      rw [← launching.opened] at emptied
      exact (launching.ready.congr emptied).between
  · refine ⟨⟨?_,by simp,fun _ => .inl rfl⟩,by simp⟩
    intro event member
    rw [List.mem_singleton.mp member]
    exact bound

private theorem launch_safe (call : Call) (sound : call.Sound)
    (completes : completing → call.Completes)
    (ready : Ready completing call.tempWidth call.tempHeight members)
    (present : ∃ input, members.inputs.lookup call.vaSurfaceID = some input ∧
      input.samplerIndex ≠ none) :
    Safe Event.Good (Between completing) (Left completing)
      (launch call (updateArguments call members)) := by
  obtain ⟨input,known,created⟩ := present
  unfold launch
  split_ifs with creates
  · have launching : Launching completing call members.device
        {updateArguments call members with
          device := members.device.create (.threadSpace members.threadswidth members.threadsheight)} :=
      ⟨rfl,⟨⟨ready.kept.owned,ready.kept.sampled,ready.kept.task,ready.kept.tight,
        ready.kept.complete⟩,{ready.made with},ready.current⟩,rfl,input,known,created,
        by simp [updateArguments,known],by simp [updateArguments,known]⟩
    apply Safe.andThen (createQueue_safe call completes launching)
    intro queued launching
    apply Safe.andThen (createTask_safe call sound launching)
    intro tasked launching
    exact enqueue_safe call sound launching.1 launching.2
  · exact exit_left.weaken fun _ => False.elim

private theorem load_safe (call : Call) (between : Between completing members) :
    Safe Event.Good (Between completing) (Left completing) (load call members) := by
  unfold load
  split_ifs with known loads
  · exact .proceed between
  · have kept := between.kept
    refine .proceed ⟨⟨kept.owned,kept.sampled,kept.task,kept.tight,kept.complete⟩,?_⟩
    apply between.template.imp_right
    intro ready
    exact ⟨⟨kept.owned,kept.sampled,kept.task,kept.tight,kept.complete⟩,{ready.made with},
      ready.current⟩
  · exact exit_left.weaken fun _ => False.elim

/-- A call whose failures are not built on keeps the tracker ready. -/
theorem getFeatureMapsGpu_safe (call : Call) (sound : call.Sound)
    (completes : completing → call.Completes) (between : Between completing members) :
    Safe Event.Good (Between completing) (Left completing) (getFeatureMapsGpu call members) := by
  unfold getFeatureMapsGpu
  apply Safe.andThen (load_safe call between)
  intro loaded between
  apply Safe.andThen (resize_safe call sound between)
  intro resized ready
  apply Safe.andThen (addInput_safe call completes ready)
  intro added ready
  exact launch_safe call sound completes ready.1 ready.2

end Steps

private theorem start_between (completing : Prop) : Between completing start.members where
  kept := {
    owned := ⟨by intro slot; cases slot <;> simp [start,Members.held],by
      intro slot; cases slot <;> simp [start,Members.held]⟩
    sampled := by simp [start]
    task := .inl rfl
    tight := by simp [start,Tight]
    complete := by simp [start]}
  template := .inl rfl

structure Reached (completing : Prop) (state : State) (trace : List Event) : Prop where
  defined : state.crashed = false
  left : Left completing state.members
  good : ∀ event ∈ trace, event.Good

private theorem step_reached {completing : Prop} {state next : State} {trace emitted : List Event}
    {call : Call} (reached : Reached completing state trace)
    (condition : call.Sound ∧ (completing → call.Completes))
    (stepped : calls.step state call = some (next,emitted)) :
    Reached completing next (trace ++ emitted) := by
  simp only [calls] at stepped
  split_ifs at stepped with ended
  obtain ⟨rfl,rfl⟩ := stepped
  have between := reached.left.resolve_left fun exited => ended (.inr exited)
  have safe := getFeatureMapsGpu_safe call condition.1 condition.2 between
  refine ⟨by simpa using safe.defined,?_,?_⟩
  · cases stop : (getFeatureMapsGpu call state.members).stop with
    | none => exact .inr (safe.ended stop)
    | some reason =>
      cases reason with
      | returned => exact safe.returned stop
      | undefined => exact absurd stop safe.defined
  · intro event member
    rcases List.mem_append.mp member with before | now
    · exact reached.good event before
    · exact safe.events event now

/-- In a run of sound calls each Enqueue has the three kernels with the arguments, the
surfaces and the sampler for its template and its VA surface, all of them live, and
ReadSurface reads a surface of the size of its map. If the calls also complete, nothing is
live between them that the tracker does not hold. -/
theorem enqueues_are_bound {actions : List Call} {final : State} {trace : List Event}
    (ran : calls.run start actions = some (final,trace)) (sound : ∀ call ∈ actions, call.Sound) :
    final.crashed = false ∧ (∀ event ∈ trace, event.Good) ∧
      (final.members.exited = false → (∀ call ∈ actions, call.Completes) → ∀ handle,
        (∃ object, (handle,object) ∈ final.members.device.live) ↔
          ∃ slot, final.members.held slot = some handle) := by
  have along : Machine.System.Along calls (fun _ call => call.Sound ∧
      ((∀ call ∈ actions, call.Completes) → call.Completes)) start actions :=
    (Machine.along_actions ran).mpr fun call member =>
      ⟨sound call member,fun completes => completes call member⟩
  have initially : Reached (∀ call ∈ actions, call.Completes) start [] :=
    ⟨rfl,.inr (start_between _),by simp⟩
  have reached := Machine.run_invariant_along _
    (fun _ _ _ _ _ reached condition stepped => step_reached reached condition stepped)
    initially along ran
  refine ⟨reached.defined,by simpa using reached.good,?_⟩
  intro stays completes handle
  rcases reached.left with exited | between
  · simp [stays] at exited
  · exact between.kept.owned.live_iff (between.kept.tight completes) handle

/-- A call in which nothing fails. -/
def Call.complete (vaSurfaceID : Nat) (tempWidth tempHeight : Int) : Call where
  vaSurfaceID := vaSurfaceID
  extractedRoi := ⟨10,20,60,40⟩
  origwidth := 1920
  origheight := 1080
  tempWidth := tempWidth
  tempHeight := tempHeight
  loads := true
  allocates := true
  setsUpSampler := true
  createsOutput _ := true
  renews _ := true
  createsInput := true
  createsSurfaceIndex := true
  createsThreadSpace := true
  createsQueue := true
  createsTask := true
  adds _ := true
  enqueues := true

theorem enqueues_are_bound_resized :
    ∃ final trace, calls.run start [.complete 5 104 96,.complete 6 104 96,.complete 5 56 48] =
        some (final,trace) ∧ trace.length = 6 ∧ final.crashed = false ∧
      (∀ event ∈ trace, event.Good) ∧ ∀ handle,
        (∃ object, (handle,object) ∈ final.members.device.live) ↔
          ∃ slot, final.members.held slot = some handle := by
  have sound : ∀ call ∈ [Call.complete 5 104 96,.complete 6 104 96,.complete 5 56 48],
      call.Sound ∧ call.Completes := by
    have all (id : Nat) (width height : Int) (wide : 0 < width) (high : 0 < height) :
        (Call.complete id width height).Sound ∧ (Call.complete id width height).Completes :=
      ⟨⟨wide,high,rfl,rfl,fun _ => rfl,fun _ => rfl⟩,rfl,rfl⟩
    simp [all]
  have bound := enqueues_are_bound rfl fun call member => (sound call member).1
  exact ⟨_,_,rfl,rfl,bound.1,bound.2.1,bound.2.2 rfl fun call member => (sound call member).2⟩

/-- Whether the sampler surface of each Enqueue is live. -/
def samplerSurfaces (trace : List Event) : List Bool :=
  trace.filterMap fun
    | .enqueue _ _ arguments _ _ live =>
      some (arguments.surfaceIndex.any fun index => index ∈ live.map Prod.fst)
    | .readSurface .. => none

-- A renewal that fails returns, but the template is recorded and the pool keeps the index.
example : (calls.run start [.complete 5 104 96,{Call.complete 5 56 48 with renews := fun _ => false},
    .complete 5 56 48]).map (fun (_,trace) => samplerSurfaces trace) = some [true,false] := rfl

end VideoAnalytics.FeatureKernels
