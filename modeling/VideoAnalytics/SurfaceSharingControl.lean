import VideoAnalytics.SurfaceSharingReferences

/-! What DecodeThreadFunc has decided before it calls DecodeFrameAsync: which slot can
be empty, and that the work surface is none that the tracker still needs. -/
namespace VideoAnalytics.SurfaceSharing

open DecodeLoop (Status Answers Decoder)
open Function (update)

section Control

variable {infer : Int} {w next : World} {action : Action} {events : List Event}

/-- DecodeThreadFunc has an output in its hands. -/
def DecodePc.outputs : DecodePc → Bool
  | .get => true
  | .lock _ => true
  | .write _ _ => true
  | .store _ => true
  | .post => true
  | _ => false

/-- The next call of DecodeFrameAsync is made with the work surface chosen last. -/
def World.Committed (w : World) : Prop :=
  w.pc = .searchVppIn ∨ w.pc = .decodeFrameAsync ∨ (w.pc = .searchDec ∧ w.keeps = true) ∨
    (w.pc = .next ∧ w.keeps = true ∧ w.decoder.goesOn = true)

/-- The next call of DecodeFrameAsync is made with the slot used last, or none is made. -/
def World.Reuses (w : World) : Prop :=
  w.pc = .decodeFrameAsync ∨ (w.pc = .next ∧ w.decoder.goesOn = false) ∨
    ((w.pc = .next ∨ w.pc = .searchDec ∨ w.pc = .searchVppIn) ∧ w.keeps = true)

/-- What DecodeThreadFunc has decided in its iteration. Only the slot of the next call can be
empty. -/
structure Controlled (w : World) : Prop where
  status : w.pc = .searchDec → w.chooses = true ∨ w.keeps = true
  settled : w.pc.outputs = true → w.decoder.sts = .errNone
  inRange : w.nIndexVppIn < w.pmfxVppInSurfaces.length
  nulls : ∀ i, w.pmfxVppInSurfaces[i]? = some none →
    i = w.nIndexVppIn ∧ (w.bNeedMore = true ∨ w.Reuses)

theorem start_controlled (nDecSurfNum : Nat) {nVppInSurfNum : Nat} (slots : 0 < nVppInSurfNum) :
    Controlled (start nDecSurfNum nVppInSurfNum) := by
  refine ⟨fun there => by contradiction,fun there => by contradiction,?_,?_⟩
  · simpa [start] using slots
  · intro i there
    simp [start] at there

private theorem keeps_unchosen (kept : w.keeps = true) : w.chooses = false := by
  unfold World.keeps at kept
  unfold World.chooses
  cases sts : w.decoder.sts with
  | warning code => rfl
  | _ =>
    rw [sts] at kept
    contradiction

/-- A search for a slot meets no NULL. -/
theorem search_intact (controlled : Controlled w) (here : w.pc = .searchVppIn)
    (searches : (!w.bNeedMore && w.chooses) = true) (i : Nat) :
    w.pmfxVppInSurfaces[i]? ≠ some none := by
  obtain ⟨first,choosing⟩ : w.bNeedMore = false ∧ w.chooses = true := by simpa using searches
  intro empty
  obtain ⟨-,more | reused⟩ := controlled.nulls i empty
  · rw [first] at more
    contradiction
  · rcases reused with calling | ⟨idle,-⟩ | ⟨-,kept⟩
    · rw [here] at calling
      contradiction
    · rw [here] at idle
      contradiction
    · rw [keeps_unchosen kept] at choosing
      contradiction

private theorem step_status (status : w.pc = .searchDec → w.chooses = true ∨ w.keeps = true)
    (stepped : Stepped infer w action next events) (there : next.pc = .searchDec) :
    next.chooses = true ∨ next.keeps = true := by
  cases stepped with
  | ends answers decoder here stops =>
    change w.pc = .searchDec at there
    rw [here] at there
    contradiction
  | goesOn answers sts here goes status =>
    rcases status with ⟨rfl,goes_on⟩ | ⟨-,rfl⟩
    · exact goes_on
    · exact .inl rfl
  | post here tokens decoder same pc reached =>
    rcases reached with rfl | rfl
    · contradiction
    · contradiction
  | chooseDec index here found => contradiction
  | keepDec here kept => contradiction
  | chooseVppIn index here searches found => contradiction
  | keepVppIn here => contradiction
  | crashVppIn here searches read => contradiction
  | output answers surfaceWork surface here work more fewer => contradiction
  | noOutput answers surfaceWork here work sts more needs => contradiction
  | get buffer lists here got => contradiction
  | lock buffer surface here slot frame same => contradiction
  | crashLock buffer here slot => contradiction
  | write buffer surface here frame written => contradiction
  | store buffer here => contradiction
  | runFrameVPPAsync answers decoder here settled => contradiction
  | _ => exact status there

private theorem step_settled (settled : w.pc.outputs = true → w.decoder.sts = .errNone)
    (stepped : Stepped infer w action next events) (there : next.pc.outputs = true) :
    next.decoder.sts = .errNone := by
  cases stepped with
  | ends answers decoder here stops =>
    change w.pc.outputs = true at there
    rw [here] at there
    contradiction
  | output answers surfaceWork surface here work more fewer => rfl
  | get buffer lists here got => exact settled (by rw [here]; rfl)
  | lock buffer surface here slot frame same => exact settled (by rw [here]; rfl)
  | write buffer surface here frame written => exact settled (by rw [here]; rfl)
  | store buffer here => exact settled (by rw [here]; rfl)
  | post here tokens decoder same pc reached =>
    rcases reached with rfl | rfl
    · contradiction
    · contradiction
  | goesOn answers sts here goes status => contradiction
  | chooseDec index here found => contradiction
  | keepDec here kept => contradiction
  | chooseVppIn index here searches found => contradiction
  | keepVppIn here => contradiction
  | crashVppIn here searches read => contradiction
  | noOutput answers surfaceWork here work sts more needs => contradiction
  | crashLock buffer here slot => contradiction
  | runFrameVPPAsync answers decoder here settled => contradiction
  | _ => exact settled there

private theorem step_inRange (inRange : w.nIndexVppIn < w.pmfxVppInSurfaces.length)
    (stepped : Stepped infer w action next events) :
    next.nIndexVppIn < next.pmfxVppInSurfaces.length := by
  cases stepped with
  | chooseVppIn index here searches found =>
    obtain ⟨surface,-,there,-⟩ := search_found found
    exact (List.getElem?_eq_some_iff.mp there).1
  | output answers surfaceWork surface here work more fewer =>
    exact lt_of_lt_of_eq inRange List.length_set.symm
  | noOutput answers surfaceWork here work sts more needs =>
    exact lt_of_lt_of_eq inRange List.length_set.symm
  | _ => exact inRange

private theorem busy_new (busy : w.pc ≠ .next ∧ w.pc ≠ .searchDec ∧ w.pc ≠ .searchVppIn ∧
    w.pc ≠ .decodeFrameAsync) : ¬w.Reuses := by
  rintro (calling | ⟨idle,-⟩ | ⟨idle | searching | searching,-⟩)
  · exact busy.2.2.2 calling
  · exact busy.1 idle
  · exact busy.1 idle
  · exact busy.2.1 searching
  · exact busy.2.2.1 searching

private theorem reuses_searching (reuses : w.Reuses) (here : w.pc = .searchDec) :
    w.keeps = true := by
  rcases reuses with calling | ⟨idle,-⟩ | ⟨-,kept⟩
  · rw [here] at calling
    contradiction
  · rw [here] at idle
    contradiction
  · exact kept

private theorem step_nulls (controlled : Controlled w)
    (stepped : Stepped infer w action next events)
    (i : Nat) (empty : next.pmfxVppInSurfaces[i]? = some none) :
    i = next.nIndexVppIn ∧ (next.bNeedMore = true ∨ next.Reuses) := by
  cases stepped with
  | chooseVppIn index here searches found => exact absurd empty (search_intact controlled here searches i)
  | crashVppIn here searches read => exact absurd empty (search_intact controlled here searches i)
  | output answers surfaceWork surface here work more fewer =>
    change (w.pmfxVppInSurfaces.set w.nIndexVppIn (some surface))[i]? = some none at empty
    rw [List.getElem?_set] at empty
    split_ifs at empty with slot inside
    · simp at empty
    · exact absurd (controlled.nulls i empty).1.symm slot
  | noOutput answers surfaceWork here work sts more needs =>
    change (w.pmfxVppInSurfaces.set w.nIndexVppIn none)[i]? = some none at empty
    have slot : i = w.nIndexVppIn := by
      rw [List.getElem?_set] at empty
      split_ifs at empty with slot inside
      · exact slot.symm
      · exact (controlled.nulls i empty).1
    refine ⟨slot,?_⟩
    rcases needs with more_data | warned | ⟨code,failed⟩
    · exact .inl more_data
    · exact .inr (.inr (.inr ⟨.inl rfl,warned⟩))
    · refine .inr (.inr (.inl ⟨rfl,?_⟩))
      subst failed
      exact Bool.and_false _
  | ends answers decoder here stops =>
    exact (controlled.nulls i empty).imp_right (Or.imp_right fun _ =>
      .inr (.inl ⟨here,stops⟩))
  | goesOn answers sts here goes status =>
    refine (controlled.nulls i empty).imp_right (Or.imp_right fun reuses => ?_)
    rcases reuses with calling | ⟨-,ended⟩ | ⟨-,kept⟩
    · rw [here] at calling
      contradiction
    · rw [goes] at ended
      contradiction
    · rcases status with ⟨rfl,-⟩ | ⟨fed,-⟩
      · exact .inr (.inr ⟨.inr (.inl rfl),kept⟩)
      · unfold World.keeps at kept
        rw [fed] at kept
        contradiction
  | chooseDec index here found =>
    refine (controlled.nulls i empty).imp_right (Or.imp_right fun reuses => ?_)
    have kept : w.keeps = true := reuses_searching reuses here
    exact .inr (.inr ⟨.inr (.inr rfl),kept⟩)
  | keepDec here kept =>
    refine (controlled.nulls i empty).imp_right (Or.imp_right fun reuses => ?_)
    have kept : w.keeps = true := reuses_searching reuses here
    exact .inr (.inr ⟨.inr (.inr rfl),kept⟩)
  | keepVppIn here => exact (controlled.nulls i empty).imp_right (Or.imp_right fun _ =>
      .inl rfl)
  | get buffer lists here got =>
    exact (controlled.nulls i empty).imp_right (Or.imp_right fun reuses =>
      absurd reuses (busy_new (by simp [here])))
  | lock buffer surface here slot frame same =>
    exact (controlled.nulls i empty).imp_right (Or.imp_right fun reuses =>
      absurd reuses (busy_new (by simp [here])))
  | crashLock buffer here slot =>
    exact (controlled.nulls i empty).imp_right (Or.imp_right fun reuses =>
      absurd reuses (busy_new (by simp [here])))
  | write buffer surface here frame written =>
    exact (controlled.nulls i empty).imp_right (Or.imp_right fun reuses =>
      absurd reuses (busy_new (by simp [here])))
  | store buffer here =>
    exact (controlled.nulls i empty).imp_right (Or.imp_right fun reuses =>
      absurd reuses (busy_new (by simp [here])))
  | post here tokens decoder same pc there =>
    exact (controlled.nulls i empty).imp_right (Or.imp_right fun reuses =>
      absurd reuses (busy_new (by simp [here])))
  | runFrameVPPAsync answers decoder here settled =>
    exact (controlled.nulls i empty).imp_right (Or.imp_right fun reuses =>
      absurd reuses (busy_new (by simp [here])))
  | _ => exact controlled.nulls i empty

theorem step_controlled (controlled : Controlled w) (stepped : Stepped infer w action next events) :
    Controlled next :=
  ⟨step_status controlled.status stepped,step_settled controlled.settled stepped,
    step_inRange controlled.inRange stepped,step_nulls controlled stepped⟩

/-- The SDK decodes into no surface that was put out and that the tracker still needs,
and a work surface is none of these. -/
structure Apart (w : World) : Prop where
  slotted : w.Slotted
  done : ∀ surface ∈ w.inUse, w.sdkDecodes surface = false
  free : w.Committed → ∀ surface, w.surfaceWork = some surface → surface ∉ w.inUse

theorem start_apart (nDecSurfNum nVppInSurfNum : Nat) : Apart (start nDecSurfNum nVppInSurfNum) :=
  ⟨fun there => by contradiction,fun surface member => by contradiction,
    fun _ surface _ member => by contradiction⟩

theorem step_slotted (controlled : Controlled w) (slotted : w.Slotted)
    (stepped : Stepped infer w action next events) : next.Slotted := by
  cases stepped with
  | output answers surfaceWork surface here work more fewer =>
    intro holding
    refine ⟨surface,?_,Function.update_self ..⟩
    change (w.pmfxVppInSurfaces.set w.nIndexVppIn (some surface))[w.nIndexVppIn]?.join = _
    rw [List.getElem?_set_self controlled.inRange]
    rfl
  | get buffer lists here got => exact fun _ => slotted (by rw [here]; rfl)
  | ends answers decoder here stops => exact slotted
  | retry => exact slotted
  | post here tokens decoder same pc there =>
    rcases there with rfl | rfl
    · exact fun there => by contradiction
    · exact fun there => by contradiction
  | wake here tokens => exact slotted
  | load buffer lists here loaded => exact slotted
  | track buffer here => exact slotted
  | copy buffer here => exact slotted
  | unlock buffer here => exact slotted
  | put buffer here => exact slotted
  | sdkAcquire surface few => exact slotted
  | sdkRelease surface some_held => exact slotted
  | sdkWrite surface picture decodes => exact slotted
  | _ => exact fun there => by contradiction

private theorem referred_member (referred : Referred w next) {surface : Nat}
    (member : surface ∈ next.inUse) :
    surface ∈ w.inUse ∨ (w.pc.usesSlot = true ∧ w.surfaceIn = some surface) := by
  cases referred with
  | same kept sdk locked => exact .inl (kept ▸ member)
  | locked other slot here surfaces sdk more =>
    rw [more] at member
    rcases List.mem_append.mp member with before | now
    · exact .inl before
    · rw [List.mem_singleton.mp now]
      exact .inr ⟨here,slot⟩
  | unlocked other surfaces sdk fewer =>
    rw [fewer]
    exact .inl (.tail _ member)
  | acquired other kept few surfaces sdk => exact .inl (kept ▸ member)
  | released other kept some_held surfaces sdk => exact .inl (kept ▸ member)

/-- Outside the use of its slot DecodeThreadFunc refers to no more surfaces. -/
theorem stepped_member (parts : Partition.Parts pool w.contents)
    (stepped : Stepped infer w action next events) (unslotted : w.pc.usesSlot = false) {surface : Nat}
    (member : surface ∈ next.inUse) : surface ∈ w.inUse := by
  rcases referred_member (step_referred parts stepped) member with before | ⟨slotted,-⟩
  · exact before
  · rw [unslotted] at slotted
    contradiction

theorem step_done (parts : Partition.Parts pool w.contents) (apart : Apart w)
    (stepped : Stepped infer w action next events) (surface : Nat) (member : surface ∈ next.inUse) :
    next.sdkDecodes surface = false := by
  have referred := referred_member (step_referred parts stepped) member
  have was : w.sdkDecodes surface = false := by
    rcases referred with before | ⟨slotted,slot⟩
    · exact apart.done surface before
    · obtain ⟨other,there,done⟩ := apart.slotted slotted
      rw [slot] at there
      rwa [Option.some.inj there]
  have given : ∀ surfaceWork, w.pc = .decodeFrameAsync → w.surfaceWork = some surfaceWork →
      surface ≠ surfaceWork := by
    intro surfaceWork here work same
    have before := referred.resolve_right fun slotted => by simp [here,DecodePc.usesSlot] at slotted
    exact apart.free (.inr (.inl here)) surfaceWork work (same ▸ before)
  cases stepped with
  | output answers surfaceWork output here work more fewer =>
    change update (update w.sdkDecodes surfaceWork true) output false surface = false
    rw [Function.update_apply,Function.update_of_ne (given surfaceWork here work)]
    split_ifs
    · rfl
    · exact was
  | noOutput answers surfaceWork here work sts more needs =>
    exact (Function.update_of_ne (given surfaceWork here work) true w.sdkDecodes).trans was
  | _ => exact was

private theorem committed_unslotted (committed : w.Committed) : w.pc.usesSlot = false := by
  rcases committed with there | there | ⟨there,-⟩ | ⟨there,-⟩
  · rw [there]
    rfl
  · rw [there]
    rfl
  · rw [there]
    rfl
  · rw [there]
    rfl

private theorem idle_uncommitted (idle : w.pc = .next) (unkept : w.keeps = false) :
    ¬w.Committed := by
  rintro (there | there | ⟨there,-⟩ | ⟨-,kept,-⟩)
  · exact absurd (idle.symm.trans there) (by simp)
  · exact absurd (idle.symm.trans there) (by simp)
  · exact absurd (idle.symm.trans there) (by simp)
  · rw [unkept] at kept
    contradiction

theorem step_free (parts : Partition.Parts pool w.contents) (counted : Counted w)
    (controlled : Controlled w) (apart : Apart w) (stepped : Stepped infer w action next events)
    (synced : ∀ answers, action = .runFrameVPPAsync answers → answers.syncOperation.isWarning = false)
    (committed : next.Committed) (surface : Nat) (work : next.surfaceWork = some surface) :
    surface ∉ next.inUse := by
  intro member
  have referred := stepped_member parts stepped
  cases stepped with
  | ends answers decoder here stops =>
    rcases committed with searching | calling | ⟨searching,-⟩ | ⟨-,-,goes⟩
    · exact absurd (here.symm.trans searching) (by simp)
    · exact absurd (here.symm.trans calling) (by simp)
    · exact absurd (here.symm.trans searching) (by simp)
    · rw [stops] at goes
      contradiction
  | goesOn answers sts here goes status =>
    have before := referred (by rw [here]; rfl) member
    rcases committed with searching | calling | ⟨-,kept⟩ | ⟨idle,-⟩
    · contradiction
    · contradiction
    · rcases status with ⟨rfl,-⟩ | ⟨-,rfl⟩
      · exact apart.free (.inr (.inr (.inr ⟨here,kept,goes⟩))) surface work before
      · contradiction
    · contradiction
  | chooseDec index here found =>
    have before := referred (by rw [here]; rfl) member
    obtain ⟨other,-,there,free⟩ := search_found found
    rw [Nat.sub_zero,List.getElem?_map] at there
    change w.pmfxDecSurfaces[index]? = some surface at work
    rw [work] at there
    cases there
    exact counted_free parts counted free before
  | keepDec here kept =>
    have before := referred (by rw [here]; rfl) member
    have keeps : w.keeps = true := by simpa [kept] using controlled.status here
    exact apart.free (.inr (.inr (.inl ⟨here,keeps⟩))) surface work before
  | chooseVppIn index here searches found =>
    exact apart.free (.inl here) surface work (referred (by rw [here]; rfl) member)
  | keepVppIn here =>
    exact apart.free (.inl here) surface work (referred (by rw [here]; rfl) member)
  | noOutput answers surfaceWork here given sts more needs =>
    exact apart.free (.inr (.inl here)) surface work (referred (by rw [here]; rfl) member)
  | post here tokens decoder same pc there =>
    have settled := controlled.settled (by rw [here]; rfl)
    have unkept : decoder.sts.isWarning = false := by
      rw [same,settled]
      rfl
    rcases there with rfl | rfl
    · rcases committed with there | there | ⟨there,-⟩ | ⟨there,-⟩ <;> contradiction
    · exact absurd committed (idle_uncommitted rfl unkept)
  | runFrameVPPAsync answers decoder here status =>
    have unkept : decoder.sts.isWarning = false := by
      by_contra warned
      have late := status (by simpa using warned)
      rw [synced answers rfl] at late
      contradiction
    exact absurd committed (idle_uncommitted rfl unkept)
  | output => rcases committed with there | there | ⟨there,-⟩ | ⟨there,-⟩ <;> contradiction
  | get => rcases committed with there | there | ⟨there,-⟩ | ⟨there,-⟩ <;> contradiction
  | lock => rcases committed with there | there | ⟨there,-⟩ | ⟨there,-⟩ <;> contradiction
  | crashVppIn => rcases committed with there | there | ⟨there,-⟩ | ⟨there,-⟩ <;> contradiction
  | crashLock => rcases committed with there | there | ⟨there,-⟩ | ⟨there,-⟩ <;> contradiction
  | write => rcases committed with there | there | ⟨there,-⟩ | ⟨there,-⟩ <;> contradiction
  | store => rcases committed with there | there | ⟨there,-⟩ | ⟨there,-⟩ <;> contradiction
  | _ => exact apart.free committed surface work (referred (committed_unslotted committed) member)

end Control

end VideoAnalytics.SurfaceSharing
