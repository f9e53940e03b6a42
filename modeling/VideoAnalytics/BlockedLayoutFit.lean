import VideoAnalytics.InterpShortcut
import VideoAnalytics.PRelu

/-! The blocked layout that addConfig announces beside the entries that the layers of this
layout use. -/
namespace VideoAnalytics.BlockedLayout
open Memory

/-- The announced blocks of a tensor are large enough: they cover its channels, and no access
of the layers leaves a buffer of that size. -/
structure LargeEnough (F : Type) [FloatType F] [Interp.FloatTrunc F] (build : Build)
    (N C H W : Nat) : Prop where
  covers : N * ((C + build.blockSize - 1) / build.blockSize) * build.blockSize * H * W ≤
    (announced build N C H W).entries
  prelu : ∀ weights src dst : Memory F, ∃ after,
    PRelu.execute build weights (announced build N C H W).entries [⟨[N,C,H,W],src⟩]
      [⟨[N,C,H,W],dst⟩] = .ok after
  source : ∀ (impl : Interp.Impl) (OH OW : Nat) (src dst : Memory F), (impl.source H W).Inside →
    ∃ after, Interp.execute build impl ⟨[N,C,H,W],src⟩ ⟨[N,C,OH,OW],dst⟩
      (announced build N C H W).entries (announced build N C OH OW).entries = .ok after
  target : ∀ (impl : Interp.Impl) (IH IW : Nat) (src dst : Memory F), (impl.source IH IW).Inside →
    ∃ after, Interp.execute build impl ⟨[N,C,IH,IW],src⟩ ⟨[N,C,H,W],dst⟩
      (announced build N C IH IW).entries (announced build N C H W).entries = .ok after

private theorem announced_entries (build : Build) (N C H W : Nat) :
    (announced build N C H W).entries = N * (C / build.blockSize * build.blockSize) * H * W := by
  unfold announced BlockingDesc.entries
  simp only [List.prod_cons,List.prod_nil]
  ring

section Divides

variable {build : Build} {C : Nat} (divides : build.blockSize ∣ C)
include divides

private theorem alignChannels_divides : alignChannels C build.blockSize = C := by
  have cover := blocks_cover build.blockSize_pos C
  have fewer := (blocks_fit_iff build.blockSize_pos C).mpr divides
  rw [Nat.div_mul_cancel divides] at fewer
  rw [alignChannels_build]
  omega

private theorem announced_divides (N H W : Nat) :
    N * alignChannels C build.blockSize * H * W = (announced build N C H W).entries := by
  rw [announced_entries,alignChannels_divides divides,Nat.div_mul_cancel divides]

private theorem prelu_fits {F : Type} [FloatType F] (N H W : Nat) (weights src dst : Memory F) :
    ∃ after, PRelu.execute build weights (announced build N C H W).entries [⟨[N,C,H,W],src⟩]
      [⟨[N,C,H,W],dst⟩] = .ok after := by
  have within := PRelu.executeBlocked_eq build weights src dst (announced_divides divides N H W).le
  refine ⟨_,Eq.trans ?_ (congrArg (Except.mapError Sum.inr) within)⟩
  rfl

section Interp

variable {F : Type} [Field F] [LinearOrder F] [IsStrictOrderedRing F] [FloorRing F]

private theorem interp_fits {impl : Interp.Impl} (N IH IW OH OW : Nat) (src dst : Memory F)
    (inside : (impl.source IH IW).Inside) :
    ∃ after, Interp.execute build impl ⟨[N,C,IH,IW],src⟩ ⟨[N,C,OH,OW],dst⟩
      (announced build N C IH IW).entries (announced build N C OH OW).entries = .ok after := by
  have room := announced_divides divides N IH IW
  have target_room := announced_divides divides N OH OW
  let input : Interp.Buffer F := ⟨(announced build N C IH IW).entries,src⟩
  let output : Interp.Buffer F := ⟨(announced build N C OH OW).entries,dst⟩
  show ∃ after, Interp.interpolate build N C input (impl.source IH IW) output
    (Interp.whole OH OW) = .ok after
  unfold Interp.interpolate
  split
  · next sizes =>
    have rows : OH ≤ IH := by
      have top := inside.top
      have bottom := inside.bottom
      have height : (impl.source IH IW).hPad = OH := sizes.1
      have plane : (impl.source IH IW).H = IH := rfl
      omega
    have columns : OW ≤ IW := by
      have left := inside.left
      have right := inside.right
      have width : (impl.source IH IW).wPad = OW := sizes.2
      have plane : (impl.source IH IW).W = IW := rfl
      omega
    rw [alignChannels_divides divides] at room target_room
    refine ⟨_,@Interp.copy_eq F (N * C * OH * OW) input output ?_ target_room.le⟩
    exact (Nat.mul_le_mul (Nat.mul_le_mul_left _ rows) columns).trans room.le
  · exact ⟨_,Interp.interpolateLoop_eq build output inside room.le target_room.le⟩

end Interp

end Divides

section Announces

variable {F : Type} [Field F] [LinearOrder F] [IsStrictOrderedRing F] [FloorRing F]

private theorem large_enough_iff (build : Build) {N C H W : Nat} (images : 1 ≤ N) (rows : 1 ≤ H)
    (columns : 1 ≤ W) : LargeEnough F build N C H W ↔ build.blockSize ∣ C := by
  constructor
  · intro enough
    have covers := enough.covers
    rw [announced_entries,Nat.mul_assoc N] at covers
    have images := Nat.le_of_mul_le_mul_right (Nat.le_of_mul_le_mul_right covers columns) rows
    apply (blocks_fit_iff build.blockSize_pos C).mp
    exact Nat.le_of_mul_le_mul_left images (by omega)
  · intro divides
    constructor
    · have room := announced_divides divides N H W
      rw [alignChannels_build,← Nat.mul_assoc N] at room
      exact room.le
    · exact prelu_fits divides N H W
    · intro impl OH OW src dst
      exact interp_fits divides N H W OH OW src dst
    · intro impl IH IW src dst
      exact interp_fits divides N IH IW H W src dst

/-- addConfig gives every tensor of these dimensions that is asked for in the blocked layout the
announced blocks, and these are large enough if and only if the channels make whole blocks. -/
theorem addConfig_large_enough_iff (build : Build) {N C H W : Nat} (images : 1 ≤ N) (rows : 1 ≤ H)
    (columns : 1 ≤ W) :
    (∀ (Precision : Type) (layer : CnnLayer Precision) (confs after : List (LayerConfig Precision))
      (inL outL : List DataConfigurator) (dynBatchSupport : Bool),
      addConfig layer confs inL outL dynBatchSupport = .ok after →
      ∃ config : LayerConfig Precision, after = confs ++ [config] ∧
        ∀ edge port precision,
          (edge,port) ∈ (inL.zip layer.insData).zip config.inConfs ∨
            (edge,port) ∈ (outL.zip layer.outData).zip config.outConfs →
          edge.1.layout = build.layout → edge.2 = some ⟨precision,[N,C,H,W]⟩ →
          port.desc.blocking = some (announced build N C H W)) ∧
    (LargeEnough F build N C H W ↔ build.blockSize ∣ C) := by
  refine ⟨?_,large_enough_iff build images rows columns⟩
  intro Precision layer confs after inL outL dynBatchSupport added
  obtain ⟨config,appended,eachIn,eachOut⟩ := addConfig_ports added
  refine ⟨config,appended,?_⟩
  rintro ⟨conf,data⟩ port precision member blocked rfl
  have described : fillPort [] conf (some ⟨precision,[N,C,H,W]⟩) = .ok [port] := by
    rcases member with input | output
    · exact List.forall₂_zip eachIn input
    · exact List.forall₂_zip eachOut output
  rw [fillPort_blocked build blocked precision N C H W] at described
  cases described
  rfl

end Announces

theorem addConfig_large_enough_iff_sixteen : LargeEnough Rat .plain 2 16 3 5 :=
  (addConfig_large_enough_iff .plain (by decide) (by decide) (by decide)).2.mpr (by decide)

/-- Twelve channels are announced as one block of eight, and the ninth lies outside. -/
theorem twelve_channels_outside : ¬LargeEnough Rat .plain 1 12 1 1 ∧
    PRelu.execute .plain (fun _ => (1 : Rat)) (announced .plain 1 12 1 1).entries
      [⟨[1,12,1,1],fun _ => 0⟩] [⟨[1,12,1,1],fun _ => 0⟩] = .error (.inr (.at 8)) := by
  constructor
  · intro enough
    exact absurd enough.covers (by decide)
  · have aligned : alignChannels 12 Build.plain.blockSize = 16 := alignChannels_build .plain 12
    have outside : PRelu.executeBlocked .plain (fun _ => (1 : Rat))
        (announced .plain 1 12 1 1).entries 1 12 1 1 (fun _ => 0) (fun _ => 0) = .error (.at 8) := by
      unfold PRelu.executeBlocked
      rw [aligned]
      rfl
    exact congrArg (Except.mapError Sum.inr) outside

end VideoAnalytics.BlockedLayout
