import VideoAnalytics.ProposalNms
import Mathlib.Algebra.Order.Ring.Rat
import Mathlib.Tactic.IntervalCases
import Mathlib.Tactic.NormNum

/-! The boxes of the Proposal layer lie in the image, so that no denominator of
nms_cpu is below one, and the greedy selection that it makes of them. -/
namespace VideoAnalytics.Proposal
open Loop Sorting Memory Lanes

/-- The selection of nms_cpu: in order, apart, and complete up to the last one. -/
structure GreedyNms {F : Type} [FloatType F] (boxes : Memory F) (numBoxes : Nat) (nmsThresh : F)
    (maxNumOut : Nat) (kept : List Nat) : Prop where
  few : kept.length ≤ maxNumOut
  within : ∀ box ∈ kept, box < numBoxes
  increasing : kept.Pairwise (· < ·)
  apart : kept.Pairwise fun i j => res boxes numBoxes i j ≤ nmsThresh
  complete : ∀ j, j < numBoxes → j ∉ kept →
    (kept.length < maxNumOut ∨ ∃ last ∈ kept, j < last) →
      ∃ i ∈ kept, i < j ∧ nmsThresh < res boxes numBoxes i j

/-- A box within an image of at least one pixel. -/
structure WellFormed {F : Type} [FloatType F] (info : ImageInfo F) (box : ProposalBox F) : Prop where
  left : ((0 : Int) : F) ≤ box.x0
  horizontal : box.x0 ≤ box.x1
  right : box.x1 ≤ info.imgW - ((1 : Int) : F)
  top : ((0 : Int) : F) ≤ box.y0
  vertical : box.y0 ≤ box.y1
  bottom : box.y1 ≤ info.imgH - ((1 : Int) : F)

section Cells

variable {F : Type} [FloatType F]

private theorem enumerateProposalsCpu_apply (exp : F → F) (bottom4d dAnchor4d anchors : Memory F)
    (proposals : Memory (ProposalBox F)) (numAnchors bottomH bottomW : Nat) (info : ImageInfo F)
    (featStride k : Nat) (low : k < bottomH * bottomW * numAnchors) :
    ∃ h w anchor, anchor < numAnchors ∧
      enumerateProposalsCpu exp bottom4d dAnchor4d anchors proposals numAnchors bottomH bottomW info
        featStride k = proposalBox exp bottom4d dAnchor4d anchors numAnchors bottomH bottomW info
          featStride h w anchor := by
  have area : bottomH * bottomW * numAnchors = bottomH * (bottomW * numAnchors) := Nat.mul_assoc ..
  have positive : 0 < numAnchors := Nat.pos_of_mul_pos_left (Nat.zero_lt_of_lt low)
  have place : ∀ n, (n / (bottomW * numAnchors) * bottomW + n % (bottomW * numAnchors) / numAnchors) *
      numAnchors + n % (bottomW * numAnchors) % numAnchors = n := by
    intro n
    rw [Nat.add_mul,Nat.add_assoc,Nat.div_add_mod',Nat.mul_assoc,Nat.div_add_mod']
  refine ⟨k / (bottomW * numAnchors),k % (bottomW * numAnchors) / numAnchors,
    k % (bottomW * numAnchors) % numAnchors,Nat.mod_lt _ positive,?_⟩
  unfold enumerateProposalsCpu
  rw [forLoop_planes]
  simp only [place]
  have written := forLoop_write 0 (bottomH * (bottomW * numAnchors)) (fun n =>
    proposalBox exp bottom4d dAnchor4d anchors numAnchors bottomH bottomW info featStride
      (n / (bottomW * numAnchors)) (n % (bottomW * numAnchors) / numAnchors)
      (n % (bottomW * numAnchors) % numAnchors)) proposals k
  simp only [Nat.zero_add] at written
  rw [written,if_pos (by omega)]
  rfl

private theorem partialSort_mem (sort : StdPartialSort (scoreGreater (F := F))) (middle count : Nat)
    (proposals : Memory (ProposalBox F)) (k : Nat) (low : k < count) :
    ∃ j, j < count ∧ partialSort sort middle count proposals k = proposals j := by
  have perm := sort.perm middle ((List.range count).map proposals)
  have within : k < (sort.sort middle ((List.range count).map proposals)).length := by
    rw [perm.length_eq]
    simpa using low
  have member := perm.subset (List.getElem_mem within)
  obtain ⟨j,inside,same⟩ := List.mem_map.mp member
  refine ⟨j,List.mem_range.mp inside,?_⟩
  unfold partialSort
  rw [List.getElem?_eq_getElem within,same]
  rfl

omit [FloatType F] in
private theorem unpackBoxes_plane (proposals : Memory (ProposalBox F)) (unpacked : Memory F)
    (preNmsTopn i k : Nat) (low : i < preNmsTopn) (few : k < 4) :
    plane (unpackBoxes proposals unpacked preNmsTopn) preNmsTopn k i =
      (proposals i).coordinate k := by
  have all : ∀ j, j < preNmsTopn → ∀ k, k < 4 →
      unpackBoxes proposals unpacked preNmsTopn (k * preNmsTopn + j) =
        (proposals j).coordinate k := by
    unfold unpackBoxes
    apply forLoop_induct fun passes (after : Memory F) => ∀ j, j < passes → ∀ k, k < 4 →
      after (k * preNmsTopn + j) = (proposals j).coordinate k
    · intro j none
      omega
    · intro pass after inside earlier j within k few
      have before : j ≠ pass → after (k * preNmsTopn + j) = (proposals j).coordinate k :=
        fun different => earlier j (by omega) k few
      simp only [write,Function.update_apply,cell_inj _ _ (show j < preNmsTopn by omega) inside]
      by_cases here : j = pass
      · subst here
        interval_cases k <;> simp [ProposalBox.coordinate]
      · simp only [here,and_false,if_false]
        exact before here
  exact all i low k few

def divisor (boxes : Memory F) (numBoxes i j : Nat) : F :=
  let zero : F := ((0 : Int) : F)
  let one : F := ((1 : Int) : F)
  let p := plane boxes numBoxes
  let width := stdMax zero (stdMin (p 2 i) (p 2 j) - stdMax (p 0 i) (p 0 j) + one)
  let height := stdMax zero (stdMin (p 3 i) (p 3 j) - stdMax (p 1 i) (p 1 j) + one)
  (p 2 i - p 0 i + one) * (p 3 i - p 1 i + one) + (p 2 j - p 0 j + one) * (p 3 j - p 1 j + one) -
    width * height

end Cells

section Exact

variable {F : Type} [Field F] [LinearOrder F] [IsStrictOrderedRing F]

private theorem clamped_edges (centre : F) {size high : F} (positive : 0 < size) (room : 0 ≤ high) :
    let low := max 0 (min (centre - half * size) high)
    let far := max 0 (min (centre + half * size) high)
    0 ≤ low ∧ low ≤ far ∧ far ≤ high := by
  have extent : 0 < half * size := by
    apply mul_pos _ positive
    unfold half
    simp
  refine ⟨le_max_left _ _,?_,max_le room (min_le_right _ _)⟩
  apply max_le_max_left
  apply min_le_min_right
  linarith

private theorem proposalBox_wellFormed (exp : F → F) (positive : ∀ a, 0 < exp a)
    (bottom4d dAnchor4d anchors : Memory F) (numAnchors bottomH bottomW : Nat) (info : ImageInfo F)
    (tall : 1 ≤ info.imgH) (wide : 1 ≤ info.imgW) (featStride h w anchor : Nat)
    (width : 0 < anchors (2 * numAnchors + anchor) - anchors (0 * numAnchors + anchor) + 1)
    (height : 0 < anchors (3 * numAnchors + anchor) - anchors (1 * numAnchors + anchor) + 1) :
    WellFormed info (proposalBox exp bottom4d dAnchor4d anchors numAnchors bottomH bottomW info
      featStride h w anchor) := by
  have shifted : ∀ x low far : F, 0 < far - low + 1 → 0 < x + far - (x + low) + 1 := by
    intro x low far above
    linarith
  have horizontal := fun centre d x => clamped_edges centre
    (mul_pos (positive d) (shifted x _ _ width)) (sub_nonneg.mpr wide)
  have vertical := fun centre d y => clamped_edges centre
    (mul_pos (positive d) (shifted y _ _ height)) (sub_nonneg.mpr tall)
  constructor <;> simp only [proposalBox,stdMax_eq,stdMin_eq,Int.cast_zero,Int.cast_one]
  · exact (horizontal _ _ _).1
  · exact (horizontal _ _ _).2.1
  · exact (horizontal _ _ _).2.2
  · exact (vertical _ _ _).1
  · exact (vertical _ _ _).2.1
  · exact (vertical _ _ _).2.2

/-- No denominator is below one: the intersection is no larger than either box. -/
theorem one_le_divisor (boxes : Memory F) (numBoxes i j : Nat)
    (first : ∀ k, k < 2 → plane boxes numBoxes k i ≤ plane boxes numBoxes (k + 2) i)
    (second : ∀ k, k < 2 → plane boxes numBoxes k j ≤ plane boxes numBoxes (k + 2) j) :
    1 ≤ divisor boxes numBoxes i j := by
  have extent : ∀ k, k < 2 → max 0 (min (plane boxes numBoxes (k + 2) i)
      (plane boxes numBoxes (k + 2) j) - max (plane boxes numBoxes k i) (plane boxes numBoxes k j) +
        1) ≤ plane boxes numBoxes (k + 2) j - plane boxes numBoxes k j + 1 := by
    intro k few
    have far := min_le_right (plane boxes numBoxes (k + 2) i) (plane boxes numBoxes (k + 2) j)
    have near := le_max_right (plane boxes numBoxes k i) (plane boxes numBoxes k j)
    have ordered := second k few
    apply max_le
    · linarith
    · linarith
  have whole : 1 ≤ (plane boxes numBoxes 2 i - plane boxes numBoxes 0 i + 1) *
      (plane boxes numBoxes 3 i - plane boxes numBoxes 1 i + 1) := by
    have width := first 0 (by decide)
    have height := first 1 (by decide)
    apply one_le_mul_of_one_le_of_one_le
    · linarith
    · linarith
  have part := mul_le_mul (extent 0 (by decide)) (extent 1 (by decide)) (le_max_left _ _)
    (by linarith [second 0 (by decide)])
  unfold divisor
  simp only [stdMax_eq,stdMin_eq,Int.cast_zero,Int.cast_one]
  linarith

omit [IsStrictOrderedRing F] in
private theorem keptBoxes_greedy (haveAvx2 : Bool) (boxes : Memory F) (numBoxes : Nat)
    {nmsThresh : F} {maxNumOut : Nat} (sign : 0 ≤ nmsThresh) (some : 1 ≤ maxNumOut) :
    GreedyNms boxes numBoxes nmsThresh maxNumOut
      (keptBoxes haveAvx2 numBoxes boxes nmsThresh maxNumOut) := by
  have limited : keptBoxes haveAvx2 numBoxes boxes nmsThresh maxNumOut =
      (Greedy.select (fun later earlier => Kills boxes numBoxes nmsThresh haveAvx2 earlier later) []
        (List.range numBoxes)).take maxNumOut := Greedy.selectUpTo_eq _ _ some
  have sub : (keptBoxes haveAvx2 numBoxes boxes nmsThresh maxNumOut).Sublist
      (List.range numBoxes) := by
    rw [limited]
    exact (List.take_sublist _ _).trans (Greedy.select_sublist _ [] (List.range numBoxes))
  have spared : ∀ i j, ¬Kills boxes numBoxes nmsThresh haveAvx2 i j →
      res boxes numBoxes i j ≤ nmsThresh := fun i j clear =>
    not_lt.mp (mt (kills_iff boxes numBoxes sign haveAvx2 i j).mpr clear)
  constructor
  · rw [limited]
    exact List.length_take_le _ _
  · intro box member
    exact List.mem_range.mp (sub.subset member)
  · exact List.pairwise_lt_range.sublist sub
  · have apart := Greedy.select_independent
      (fun later earlier => Kills boxes numBoxes nmsThresh haveAvx2 earlier later)
      (List.range numBoxes) (List.Pairwise.nil : List.Pairwise _ [])
    rw [limited]
    exact (apart.sublist (List.take_sublist _ _)).imp fun clear => spared _ _ clear
  · intro j low dropped reached
    rw [limited] at dropped reached ⊢
    obtain ⟨i,taken,earlier,kills⟩ := Greedy.take_complete
      (fun later earlier => Kills boxes numBoxes nmsThresh haveAvx2 earlier later)
      Nat.lt_irrefl (fun _ _ _ => Nat.lt_trans) List.pairwise_lt_range (List.mem_range.mpr low)
      dropped reached
    exact ⟨i,taken,earlier,(kills_iff boxes numBoxes sign haveAvx2 i j).mp kills⟩

section Setup

variable (impl : Impl F) (exp : F → F) (setup : Setup F) (run : Run F)

private theorem enumerated_wellFormed (positive : ∀ a, 0 < exp a)
    (proposals : setup.numProposals = impl.anchorsShape0 * setup.bottomH * setup.bottomW)
    (anchors : ∀ k anchor, k < 2 → anchor < impl.anchorsShape0 →
      0 < impl.anchors ((k + 2) * impl.anchorsShape0 + anchor) -
        impl.anchors (k * impl.anchorsShape0 + anchor) + 1)
    (tall : 1 ≤ setup.info.imgH) (wide : 1 ≤ setup.info.imgW) (k : Nat)
    (low : k < setup.numProposals) : WellFormed setup.info (enumerated impl exp setup run k) := by
  have area : setup.numProposals = setup.bottomH * setup.bottomW * impl.anchorsShape0 := by
    rw [proposals]
    ring
  obtain ⟨h,w,anchor,inside,same⟩ := enumerateProposalsCpu_apply exp
    (setup.pBottomItem.offset setup.numProposals) setup.pDAnchorItem impl.anchors run.proposals
    impl.anchorsShape0 setup.bottomH setup.bottomW setup.info impl.featStride k (area ▸ low)
  unfold enumerated
  rw [same]
  exact proposalBox_wellFormed exp positive _ _ _ _ _ _ _ tall wide _ _ _ _
    (anchors 0 anchor (by decide) inside) (anchors 1 anchor (by decide) inside)

omit [IsStrictOrderedRing F] in
/-- The sort and the transposition keep the order of the corners. -/
theorem topBoxes_ordered (sort : StdPartialSort (scoreGreater (F := F)))
    (fewer : setup.preNmsTopn ≤ setup.numProposals)
    (wellFormed : ∀ k, k < setup.numProposals →
      WellFormed setup.info (enumerated impl exp setup run k)) {i k : Nat}
    (low : i < setup.preNmsTopn) (few : k < 2) :
    plane (topBoxes impl exp sort setup run) setup.preNmsTopn k i ≤
      plane (topBoxes impl exp sort setup run) setup.preNmsTopn (k + 2) i := by
  obtain ⟨j,inside,same⟩ := partialSort_mem sort setup.preNmsTopn setup.numProposals
    (enumerated impl exp setup run) i (low.trans_le fewer)
  have box := wellFormed j inside
  rw [← same] at box
  unfold topBoxes
  rw [unpackBoxes_plane _ _ _ _ _ low (by omega),unpackBoxes_plane _ _ _ _ _ low (by omega)]
  interval_cases k
  · exact box.horizontal
  · exact box.vertical

end Setup

/-- The boxes of an image lie in it, so that no denominator is below one, and its
regions of interest are the greedy selection of the best of them. -/
theorem proposals_greedy (impl : Impl F) (exp : F → F) (positive : ∀ a, 0 < exp a)
    (sort : StdPartialSort (scoreGreater (F := F))) (haveAvx2 : Bool)
    (bottom deltas imgInfo : ExtBlob F) (n : Nat) (run : Run F)
    (anchors : ∀ k anchor, k < 2 → anchor < impl.anchorsShape0 →
      0 < impl.anchors ((k + 2) * impl.anchorsShape0 + anchor) -
        impl.anchors (k * impl.anchorsShape0 + anchor) + 1)
    (tall : 1 ≤ imgInfo.data 0) (wide : 1 ≤ imgInfo.data 1) (sign : 0 ≤ impl.nmsThresh)
    (some : 1 ≤ impl.postNmsTopn) :
    let setup := setup impl bottom deltas imgInfo
    (∀ k, k < setup.numProposals → WellFormed setup.info (enumerated impl exp setup run k)) ∧
    ∃ after kept, executeImage impl exp sort haveAvx2 setup n run = .ok after ∧
      (∀ i j, i < setup.preNmsTopn → j < setup.preNmsTopn →
        1 ≤ divisor after.unpackedBoxes setup.preNmsTopn i j) ∧
      after.numRois = kept.length ∧
      after.roiIndices.Holds 0 (kept.map fun box : Nat => (box : Int)) ∧
      GreedyNms after.unpackedBoxes setup.preNmsTopn impl.nmsThresh impl.postNmsTopn kept := by
  intro setup
  have wellFormed := enumerated_wellFormed impl exp setup run positive rfl anchors tall wide
  have ordered := fun i (low : i < setup.preNmsTopn) k => topBoxes_ordered impl exp setup run
    (i := i) (k := k) sort (min_le_left _ _) wellFormed low
  refine ⟨wellFormed,?_⟩
  let boxes := topBoxes impl exp sort setup run
  obtain ⟨nms,represents,executed⟩ := executeImage_eq impl exp sort haveAvx2 setup n run
  refine ⟨_,keptBoxes haveAvx2 setup.preNmsTopn boxes impl.nmsThresh impl.postNmsTopn,executed,?_,
    represents.count,?_,keptBoxes_greedy haveAvx2 boxes setup.preNmsTopn sign some⟩
  · intro i j first second
    exact one_le_divisor boxes setup.preNmsTopn i j (ordered i first) (ordered j second)
  · simpa using represents.indexOut

end Exact

def threeAnchors : Impl Rat where
  featStride := 1
  minSize := 1
  preNmsTopn := 3
  postNmsTopn := 2
  nmsThresh := 1 / 2
  anchorsShape0 := 3
  anchors := fun address => if address < 6 then 0 else if address % 3 = 2 then 9 else 1

def onePlace (values : Memory Rat) : ExtBlob Rat where
  dims := [1,6,1,1]
  data := values

theorem proposals_greedy_three :
    ∃ after kept, executeImage threeAnchors (fun _ => 1) (StdPartialSort.insertion _) true
        (setup threeAnchors (onePlace fun _ => 1) (onePlace fun _ => 0) (onePlace fun _ => 10)) 0
        (fresh (fun _ => 0) fun _ => 0) = .ok after ∧
      GreedyNms after.unpackedBoxes 3 (1 / 2) 2 kept := by
  obtain ⟨-,after,kept,executed,-,-,-,greedy⟩ := proposals_greedy threeAnchors (fun _ => 1)
    (fun _ => by norm_num) (StdPartialSort.insertion _) true (onePlace fun _ => 1)
    (onePlace fun _ => 0) (onePlace fun _ => 10) 0 (fresh (fun _ => 0) fun _ => 0)
    (by
      intro k anchor few low
      change anchor < 3 at low
      interval_cases k <;> interval_cases anchor <;> norm_num [threeAnchors])
    (by norm_num [onePlace]) (by norm_num [onePlace]) (by norm_num [threeAnchors]) (by decide)
  exact ⟨after,kept,executed,greedy⟩

end VideoAnalytics.Proposal
