import VideoAnalytics.Library.Greedy
import VideoAnalytics.Proposal
import Mathlib.Tactic.Linarith

/-! The boxes that nms_cpu keeps, as the greedy selection by what a kept box kills,
and that the blocks of the AVX2 build kill what the scalar loop does. -/
namespace VideoAnalytics.Proposal
open Loop Sorting Memory Lanes

section Kills

variable {F : Type} [FloatType F] (boxes : Memory F) (numBoxes : Nat) (nmsThresh : F)

/-- The mask that a block of eight boxes computes for one of them. -/
def laneKills (box j : Nat) : Bool :=
  let zero : F := ((0 : Int) : F)
  let one : F := ((1 : Int) : F)
  let x0i := plane boxes numBoxes 0 box
  let y0i := plane boxes numBoxes 1 box
  let x1i := plane boxes numBoxes 2 box
  let y1i := plane boxes numBoxes 3 box
  let x0j := plane boxes numBoxes 0 j
  let y0j := plane boxes numBoxes 1 j
  let x1j := plane boxes numBoxes 2 j
  let y1j := plane boxes numBoxes 3 j
  let width := minPs x1i x1j - maxPs x0i x0j + one
  let height := minPs y1i y1j - maxPs y0i y0j + one
  let area := maxPs zero width * maxPs zero height
  let aArea := (x1i - x0i + one) * (y1i - y0i + one)
  let bArea := (x1j - x0j + one) * (y1j - y0j + one)
  (decide (nmsThresh < area / (aArea + bArea - area)) &&
    (decide (x0i ≤ x1j) && decide (y0i ≤ y1j))) &&
    (decide (x0j ≤ x1i) && decide (y0j ≤ y1i))

/-- Whether a kept box kills one behind it: by a lane of a block, or in the scalar loop. -/
def Kills (haveAvx2 : Bool) (box j : Nat) : Prop :=
  if haveAvx2 ∧ j < box + 1 + blocks numBoxes box * 8 then
    laneKills boxes numBoxes nmsThresh box j = true
  else nmsThresh < res boxes numBoxes box j

instance kills_decidable (haveAvx2 : Bool) :
    DecidableRel (Kills boxes numBoxes nmsThresh haveAvx2) := by
  intro box j
  unfold Kills
  infer_instance

private theorem killTail_apply (box tail : Nat) (isDead : Memory Int) (within : tail ≤ numBoxes)
    (address : Nat) : killTail boxes numBoxes nmsThresh box tail isDead address =
      if tail ≤ address ∧ address < numBoxes ∧ nmsThresh < res boxes numBoxes box address then 1
      else isDead address := by
  have update : ∀ i (isDead : Memory Int),
      (if nmsThresh < res boxes numBoxes box (tail + i) then isDead.write (tail + i) 1 else isDead) =
        isDead.write (tail + i)
          (if nmsThresh < res boxes numBoxes box (tail + i) then 1 else isDead (tail + i)) := by
    intro i isDead
    split
    · rfl
    · exact (Function.update_eq_self _ _).symm
  unfold killTail
  simp only [update]
  rw [forLoop_mark tail _ fun j => nmsThresh < res boxes numBoxes box j,Nat.add_sub_cancel' within]

private theorem killBlock_eq (box tail : Nat) (isDead : Memory Int) (within : tail + 8 ≤ numBoxes) :
    killBlock boxes numBoxes nmsThresh box tail isDead =
      storeu numBoxes isDead tail fun lane : Fin 8 =>
        if laneKills boxes numBoxes nmsThresh box (tail + lane) then 1
        else isDead (tail + lane) := by
  unfold killBlock
  simp only [loadu_within _ within]
  rfl

private theorem killBlocks_eq (box : Nat) (isDead : Memory Int) (low : box < numBoxes) :
    killBlocks boxes numBoxes nmsThresh box isDead =
      .ok fun address =>
        if box < address ∧ address < box + 1 + blocks numBoxes box * 8 ∧
          laneKills boxes numBoxes nmsThresh box address then 1 else isDead address := by
  have within : box + 1 + blocks numBoxes box * 8 ≤ numBoxes := by
    unfold blocks
    omega
  unfold killBlocks
  rw [tryLoop_blocks numBoxes (fun i old =>
    if laneKills boxes numBoxes nmsThresh box (box + 1 + i) then 1 else old) _ within]
  · congr 1
    ext address
    rw [forLoop_mark (box + 1) _ fun j => laneKills boxes numBoxes nmsThresh box j]
    rfl
  · intro i isDead inside
    rw [killBlock_eq _ _ _ _ _ _ (by omega)]
    simp only [Nat.add_assoc]

/-- What either build kills, each within its entries. -/
theorem kill_eq (haveAvx2 : Bool) (box : Nat) (isDead : Memory Int) (low : box < numBoxes) :
    kill haveAvx2 boxes numBoxes nmsThresh box isDead =
      .ok fun address =>
        if box < address ∧ address < numBoxes ∧
          Kills boxes numBoxes nmsThresh haveAvx2 box address then 1 else isDead address := by
  have within : box + 1 + blocks numBoxes box * 8 ≤ numBoxes := by
    unfold blocks
    omega
  unfold kill Kills
  cases haveAvx2 with
  | false =>
    simp only [Bool.false_eq_true,if_false,false_and]
    congr 1
    ext address
    rw [killTail_apply _ _ _ _ _ _ low]
    rfl
  | true =>
    simp only [if_true,true_and,killBlocks_eq _ _ _ _ _ low]
    change Except.ok _ = Except.ok _
    congr 1
    ext address
    rw [killTail_apply _ _ _ _ _ _ within]
    by_cases blocked : address < box + 1 + blocks numBoxes box * 8
    · rw [if_neg (by omega)]
      simp only [blocked,if_true,true_and]
      apply if_congr _ rfl rfl
      have inside : address < numBoxes := by omega
      tauto
    · simp only [blocked,if_false,false_and,and_false]
      apply if_congr _ rfl rfl
      have behind : box < address ↔ box + 1 + blocks numBoxes box * 8 ≤ address := by omega
      tauto

end Kills

section Loop

/-- The first entries of index_out are these boxes. -/
structure Represents (baseIndex : Int) (nms : Nms) (kept : List Nat) : Prop where
  count : nms.count = kept.length
  indexOut : nms.indexOut.Holds 0 (kept.map fun box : Nat => baseIndex + box)

variable {kill : Nat → Memory Int → Except Outside (Memory Int)} {kills : Nat → Nat → Prop}
  [DecidableRel kills] (baseIndex : Int) (maxNumOut : Nat)

private theorem Represents.keep {baseIndex : Int} {nms : Nms} {kept : List Nat}
    (represents : Represents baseIndex nms kept) (box : Nat) (isDead : Memory Int) :
    Represents baseIndex
      ⟨isDead,nms.indexOut.write nms.count (baseIndex + box),nms.count + 1⟩ (kept ++ [box]) where
  count := by
    rw [List.length_append,← represents.count]
    rfl
  indexOut := by
    have extended := represents.indexOut.extend (baseIndex + box)
    rw [List.length_map,Nat.zero_add,← represents.count] at extended
    rw [List.map_append]
    exact extended

/-- Behind a box that is kept, the flags are those of the boxes before it and its own. -/
theorem killed_iff {numBoxes box j : Nat} (kept : List Nat) (isDead : Memory Int)
    (behind : box < j) (low : j < numBoxes) (before : isDead j ≠ 0 ↔ ∃ i ∈ kept, kills i j) :
    (if box < j ∧ j < numBoxes ∧ kills box j then 1 else isDead j) ≠ 0 ↔
      ∃ i ∈ kept ++ [box], kills i j := by
  by_cases hit : kills box j
  · rw [if_pos ⟨behind,low,hit⟩]
    constructor
    · intro _
      exact ⟨box,by simp,hit⟩
    · intro _
      decide
  · rw [if_neg fun all => hit all.2.2,before]
    constructor
    · rintro ⟨i,member,kill⟩
      exact ⟨i,by simp [member],kill⟩
    · rintro ⟨i,member,kill⟩
      rcases List.mem_append.mp member with member | last
      · exact ⟨i,member,kill⟩
      · rw [List.mem_singleton.mp last] at kill
        exact absurd kill hit

/-- The loop keeps what the greedy selection takes, up to the limit. -/
theorem nmsLoop_eq (numBoxes remaining box : Nat) (nms : Nms) (kept : List Nat)
    (killed : ∀ box isDead, box < numBoxes → kill box isDead = .ok fun address =>
      if box < address ∧ address < numBoxes ∧ kills box address then 1 else isDead address)
    (all : box + remaining = numBoxes) (represents : Represents baseIndex nms kept)
    (dead : ∀ j, box ≤ j → j < numBoxes → (nms.isDead j ≠ 0 ↔ ∃ i ∈ kept, kills i j)) :
    ∃ after, nmsLoop kill baseIndex maxNumOut remaining box nms = .ok after ∧
      Represents baseIndex after (Greedy.selectUpTo (fun later earlier => kills earlier later)
        maxNumOut kept (List.range' box remaining)) := by
  induction remaining generalizing box nms kept with
  | zero => exact ⟨nms,rfl,represents⟩
  | succ remaining ih =>
    have here := dead box (Nat.le_refl _) (by omega)
    rw [List.range'_succ]
    unfold nmsLoop Greedy.selectUpTo
    by_cases conflict : ∃ i ∈ kept, kills i box
    · rw [if_pos (here.mpr conflict),if_pos conflict]
      apply ih _ _ _ (by omega) represents
      intro j behind low
      exact dead j (by omega) low
    · rw [if_neg (mt here.mp conflict),if_neg conflict]
      have full : nms.count + 1 = maxNumOut ↔ (kept ++ [box]).length = maxNumOut := by
        rw [← (represents.keep box nms.isDead).count]
      by_cases limit : (kept ++ [box]).length = maxNumOut
      · rw [if_pos limit]
        dsimp only
        rw [if_pos (full.mpr limit)]
        exact ⟨_,rfl,represents.keep box nms.isDead⟩
      · let isDead : Memory Int := fun address =>
          if box < address ∧ address < numBoxes ∧ kills box address then 1 else nms.isDead address
        rw [if_neg limit]
        dsimp only
        rw [if_neg (mt full.mp limit),killed box nms.isDead (by omega)]
        refine ih (box + 1)
          ⟨isDead,nms.indexOut.write nms.count (baseIndex + box),nms.count + 1⟩ (kept ++ [box])
          (by omega) (represents.keep box isDead) ?_
        intro j behind low
        exact killed_iff kept nms.isDead (by omega) low (dead j (by omega) low)

end Loop

section Selection

variable {F : Type} [FloatType F] (haveAvx2 : Bool) (numBoxes : Nat) (isDead : Memory Int)
  (boxes : Memory F) (indexOut : Memory Int) (baseIndex : Int) (nmsThresh : F) (maxNumOut : Nat)

/-- The boxes that nms_cpu keeps. -/
def keptBoxes : List Nat :=
  Greedy.selectUpTo (fun later earlier => Kills boxes numBoxes nmsThresh haveAvx2 earlier later)
    maxNumOut [] (List.range numBoxes)

private theorem nmsCpu_eq : ∃ nms,
    nmsCpu haveAvx2 numBoxes isDead boxes indexOut baseIndex nmsThresh maxNumOut = .ok nms ∧
      Represents baseIndex nms (keptBoxes haveAvx2 numBoxes boxes nmsThresh maxNumOut) := by
  unfold nmsCpu keptBoxes
  rw [List.range_eq_range']
  apply @nmsLoop_eq _ (Kills boxes numBoxes nmsThresh haveAvx2) _ baseIndex maxNumOut numBoxes
  · intro box isDead low
    exact kill_eq boxes numBoxes nmsThresh haveAvx2 box isDead low
  · exact Nat.zero_add numBoxes
  · exact ⟨rfl,holds_nil _ _⟩
  · intro j _ low
    dsimp only
    rw [forLoop_write,if_pos (by omega)]
    simp

end Selection

section Image

variable {F : Type} [FloatType F] (impl : Impl F) (exp : F → F)
  (sort : StdPartialSort (scoreGreater (F := F))) (haveAvx2 : Bool) (setup : Setup F) (n : Nat)
  (run : Run F)

def enumerated : Memory (ProposalBox F) :=
  enumerateProposalsCpu exp (setup.pBottomItem.offset setup.numProposals) setup.pDAnchorItem
    impl.anchors run.proposals impl.anchorsShape0 setup.bottomH setup.bottomW setup.info
    impl.featStride

def topBoxes : Memory F :=
  unpackBoxes (partialSort sort setup.preNmsTopn setup.numProposals (enumerated impl exp setup run))
    run.unpackedBoxes setup.preNmsTopn

/-- No image fails, and what it leaves comes from the boxes that nms_cpu keeps. -/
theorem executeImage_eq : ∃ nms,
    Represents 0 nms (keptBoxes haveAvx2 setup.preNmsTopn (topBoxes impl exp sort setup run)
      impl.nmsThresh impl.postNmsTopn) ∧
    executeImage impl exp sort haveAvx2 setup n run = .ok {
      proposals := partialSort sort setup.preNmsTopn setup.numProposals
        (enumerated impl exp setup run)
      unpackedBoxes := topBoxes impl exp sort setup run
      isDead := nms.isDead
      roiIndices := nms.indexOut
      numRois := nms.count
      rois := RoiLayers.retrieveRoisCpu nms.count n setup.preNmsTopn
        (topBoxes impl exp sort setup run) (fun roi => (nms.indexOut roi).toNat) run.rois
        impl.postNmsTopn} := by
  obtain ⟨nms,executed,represents⟩ := nmsCpu_eq haveAvx2 setup.preNmsTopn run.isDead
    (topBoxes impl exp sort setup run) run.roiIndices 0 impl.nmsThresh impl.postNmsTopn
  refine ⟨nms,represents,?_⟩
  unfold executeImage
  dsimp only
  change (nmsCpu haveAvx2 setup.preNmsTopn run.isDead (topBoxes impl exp sort setup run)
    run.roiIndices 0 impl.nmsThresh impl.postNmsTopn >>= _) = _
  rw [executed]
  rfl

end Image

section Exact

variable {F : Type} [Field F] [LinearOrder F]

private theorem maxPs_eq (a b : F) : maxPs a b = max a b := by
  unfold maxPs
  split
  · next above => exact (max_eq_left (le_of_lt above)).symm
  · next below => exact (max_eq_right (not_lt.mp below)).symm

private theorem minPs_eq (a b : F) : minPs a b = min a b := by
  unfold minPs
  split
  · next below => exact (min_eq_left (le_of_lt below)).symm
  · next above => exact (min_eq_right (not_lt.mp above)).symm

/-- The masks of a block spare disjoint boxes as the branch of the scalar loop does. -/
theorem laneKills_iff (boxes : Memory F) (numBoxes : Nat) {nmsThresh : F} (sign : 0 ≤ nmsThresh)
    (box j : Nat) :
    laneKills boxes numBoxes nmsThresh box j = true ↔ nmsThresh < res boxes numBoxes box j := by
  unfold laneKills res
  simp only [maxPs_eq,minPs_eq,stdMax_eq,stdMin_eq,Bool.and_eq_true,decide_eq_true_eq]
  split
  · next overlap => simp only [overlap,and_true]
  · next apart =>
    constructor
    · rintro ⟨⟨-,first⟩,second⟩
      exact absurd ⟨first.1,first.2,second.1,second.2⟩ apart
    · intro above
      exact absurd above (not_lt.mpr (by simpa using sign))

theorem kills_iff (boxes : Memory F) (numBoxes : Nat) {nmsThresh : F} (sign : 0 ≤ nmsThresh)
    (haveAvx2 : Bool) (box j : Nat) :
    Kills boxes numBoxes nmsThresh haveAvx2 box j ↔ nmsThresh < res boxes numBoxes box j := by
  unfold Kills
  split
  · exact laneKills_iff boxes numBoxes sign box j
  · exact Iff.rfl

end Exact

private theorem nmsLoop_congr {kill other : Nat → Memory Int → Except Outside (Memory Int)}
    {numBoxes : Nat}
    (same : ∀ box isDead, box < numBoxes → kill box isDead = other box isDead) (baseIndex : Int)
    (maxNumOut remaining box : Nat) (all : box + remaining = numBoxes) (nms : Nms) :
    nmsLoop kill baseIndex maxNumOut remaining box nms =
      nmsLoop other baseIndex maxNumOut remaining box nms := by
  induction remaining generalizing box nms with
  | zero => rfl
  | succ remaining ih =>
    have later := ih (box + 1) (by omega)
    unfold nmsLoop
    simp only [same box _ (by omega),later]

/-- Both builds of nms_cpu leave the same, and the one with AVX2 loads and stores
within the entries only: it does not fail. -/
theorem builds_agree {F : Type} [Field F] [LinearOrder F] (numBoxes : Nat) (isDead : Memory Int)
    (boxes : Memory F) (indexOut : Memory Int) (baseIndex : Int) (nmsThresh : F) (maxNumOut : Nat)
    (sign : 0 ≤ nmsThresh) : ∃ nms,
      nmsCpu true numBoxes isDead boxes indexOut baseIndex nmsThresh maxNumOut = .ok nms ∧
      nmsCpu false numBoxes isDead boxes indexOut baseIndex nmsThresh maxNumOut = .ok nms := by
  obtain ⟨nms,kept,-⟩ := nmsCpu_eq true numBoxes isDead boxes indexOut baseIndex nmsThresh maxNumOut
  refine ⟨nms,kept,?_⟩
  rw [← kept]
  apply nmsLoop_congr _ baseIndex maxNumOut numBoxes 0 (Nat.zero_add numBoxes)
  intro box isDead low
  rw [kill_eq _ _ _ false box isDead low,kill_eq _ _ _ true box isDead low]
  simp only [kills_iff boxes numBoxes sign]

def pairedBoxes (count : Nat) : Memory Rat := fun address =>
  ((address % count / 2 * 3 + if address < 2 * count then 0 else 1 : Nat) : Rat)

theorem builds_agree_eleven : ∃ nms,
    nmsCpu true 11 (fun _ => 5) (pairedBoxes 11) (fun _ => 7) 0 (1 / 2) 100 = .ok nms ∧
      nmsCpu false 11 (fun _ => 5) (pairedBoxes 11) (fun _ => 7) 0 (1 / 2) 100 = .ok nms :=
  builds_agree 11 (fun _ => 5) (pairedBoxes 11) (fun _ => 7) 0 (1 / 2) 100 (by norm_num)

end VideoAnalytics.Proposal
