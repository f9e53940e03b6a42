import VideoAnalytics.Library.Loop
import Mathlib.Data.Int.Bitwise
import Mathlib.Tactic.Linarith

/-! The configurations that the layers of the CPU extension announce, and the blocked
layout of channels in which some of them work. -/
namespace VideoAnalytics.BlockedLayout
open Loop

/-- What the extension is built for. -/
inductive Build
  | plain
  | sse
  | avx2
  | avx512
  deriving DecidableEq, Repr

inductive ConfLayout
  | any
  | pln
  | blk8
  | blk16
  deriving DecidableEq, Repr

structure DataConfigurator where
  layout : ConfLayout
  constant : Bool := false
  inplace : Int := -1

structure BlockingDesc where
  blocks : List Nat
  order : List Nat
  deriving DecidableEq, Repr

/-- The description of a tensor, of any layout when it names no blocking. -/
structure TensorDesc (Precision : Type) where
  precision : Precision
  dims : List Nat
  blocking : Option BlockingDesc

structure DataConfig (Precision : Type) where
  inPlace : Int
  constant : Bool
  desc : TensorDesc Precision

structure LayerConfig (Precision : Type) where
  inConfs : List (DataConfig Precision)
  outConfs : List (DataConfig Precision)
  dynBatchSupport : Bool

structure Data (Precision : Type) where
  precision : Precision
  dims : List Nat

/-- The data at the edges of a layer, none where it is gone. -/
structure CnnLayer (Precision : Type) where
  insData : List (Option (Data Precision))
  outData : List (Option (Data Precision))

def Build.blockSize : Build → Nat
  | .avx512 => 16
  | _ => 8

/-- blk_layout -/
def Build.layout : Build → ConfLayout
  | .avx512 => .blk16
  | _ => .blk8

/-- The floats that one instruction loads or stores. -/
def Build.width : Build → Nat
  | .plain => 1
  | .sse => 4
  | .avx2 => 8
  | .avx512 => 16

/-- (C + block_size - 1) & (-block_size) -/
def alignChannels (C blockSize : Nat) : Nat :=
  (Int.land ((C : Int) + blockSize - 1) (-(blockSize : Int))).toNat

section Config

variable {Precision : Type}

def ConfLayout.blkSize (layout : ConfLayout) : Nat := if layout = .blk8 then 8 else 16

def fillPort (port : List (DataConfig Precision)) (conf : DataConfigurator)
    (data : Option (Data Precision)) : Except String (List (DataConfig Precision)) :=
  match data with
  | none => .error "Cannot get input data!"
  | some data =>
    let order := List.range data.dims.length
    let put (blocking : Option BlockingDesc) : Except String (List (DataConfig Precision)) :=
      .ok (port ++ [⟨conf.inplace,conf.constant,⟨data.precision,data.dims,blocking⟩⟩])
    if conf.layout = .blk8 ∨ conf.layout = .blk16 then
      if data.dims.length ≠ 4 then
        .error ("Inapplicable blocking layout." ++ "Tensor should be 4D.")
      else
        let blkSize := conf.layout.blkSize
        let blocks := data.dims.set 1 (data.dims.getD 1 0 / blkSize)
        put (some ⟨blocks ++ [blkSize],order ++ [1]⟩)
    else if conf.layout = .any then put none
    else put (some ⟨data.dims,order⟩)

def fillPorts (confs : List DataConfigurator) (data : List (Option (Data Precision))) :
    Except String (List (DataConfig Precision)) :=
  (confs.zip data).foldlM (fun port edge => fillPort port edge.1 edge.2) []

def incorrectNumber (expected specified : Nat) : String :=
  "Incorrect number of input edges. Expected " ++ toString expected ++
    " but layout specification provided for " ++ toString specified

/-- The configurations of the layer after a further one. -/
def addConfig (layer : CnnLayer Precision) (confs : List (LayerConfig Precision))
    (inL outL : List DataConfigurator) (dynBatchSupport : Bool) :
    Except String (List (LayerConfig Precision)) :=
  if inL.length ≠ layer.insData.length then
    .error (incorrectNumber layer.insData.length inL.length)
  else if outL.length ≠ layer.outData.length then
    .error (incorrectNumber layer.outData.length outL.length)
  else do
    let inConfs ← fillPorts inL layer.insData
    let outConfs ← fillPorts outL layer.outData
    return confs ++ [⟨inConfs,outConfs,dynBatchSupport⟩]

/-- The entries that the engine provides for a tensor of a blocking. -/
def BlockingDesc.entries (blocking : BlockingDesc) : Nat := blocking.blocks.prod

end Config

private theorem ldiff_ones (n k : Nat) : Nat.ldiff n (2 ^ k - 1) = n / 2 ^ k * 2 ^ k := by
  apply Nat.eq_of_testBit_eq
  intro i
  rw [Nat.testBit_ldiff,Nat.testBit_two_pow_sub_one,Nat.testBit_mul_two_pow,Nat.testBit_div_two_pow]
  by_cases low : i < k
  · simp [low,Nat.not_le.mpr low]
  · simp [low,Nat.not_lt.mp low]

/-- The channels are rounded up to whole blocks of a power of two. -/
theorem alignChannels_pow (C k : Nat) :
    alignChannels C (2 ^ k) = (C + 2 ^ k - 1) / 2 ^ k * 2 ^ k := by
  have size : 1 ≤ 2 ^ k := Nat.one_le_two_pow
  have last : (C : Int) + (2 ^ k : Nat) - 1 = ((C + 2 ^ k - 1 : Nat) : Int) := by omega
  have mask : -((2 ^ k : Nat) : Int) = Int.negSucc (2 ^ k - 1) := by
    rw [Int.negSucc_eq]
    omega
  unfold alignChannels
  rw [last,mask,← ldiff_ones]
  rfl

section Blocks

variable (build : Build)

private theorem Build.blockSize_pow : ∃ k, build.blockSize = 2 ^ k := by
  cases build with
  | avx512 => exact ⟨4,rfl⟩
  | _ => exact ⟨3,rfl⟩

theorem Build.blockSize_pos : 0 < build.blockSize := by
  obtain ⟨k,power⟩ := build.blockSize_pow
  rw [power]
  exact Nat.two_pow_pos k

/-- Loads or stores of the build make up a block. -/
theorem Build.width_pieces : build.blockSize / build.width * build.width = build.blockSize := by
  cases build <;> rfl

theorem Build.piece_within {i : Nat} (piece : i < build.blockSize / build.width) :
    i * build.width + build.width ≤ build.blockSize := by
  have fits := Nat.mul_le_mul_right build.width (Nat.succ_le_of_lt piece)
  rwa [build.width_pieces,Nat.succ_mul] at fits

private theorem Build.layout_blkSize : build.layout.blkSize = build.blockSize := by
  cases build <;> rfl

theorem alignChannels_build (C : Nat) : alignChannels C build.blockSize =
    (C + build.blockSize - 1) / build.blockSize * build.blockSize := by
  obtain ⟨k,power⟩ := build.blockSize_pow
  rw [power]
  exact alignChannels_pow C k

theorem blocks_cover {size : Nat} (positive : 0 < size) (C : Nat) :
    C ≤ (C + size - 1) / size * size := by
  have split := Nat.div_add_mod' (C + size - 1) size
  have rest := Nat.mod_lt (C + size - 1) positive
  omega

/-- Whole blocks are as many as the channels only if these divide into blocks. -/
theorem blocks_fit_iff {size : Nat} (positive : 0 < size) (C : Nat) :
    (C + size - 1) / size * size ≤ C / size * size ↔ size ∣ C := by
  have cover := blocks_cover positive C
  have split := Nat.div_add_mod' C size
  constructor
  · intro fits
    apply Nat.dvd_of_mod_eq_zero
    omega
  · rintro ⟨count,rfl⟩
    have whole : size * count / size = count := Nat.mul_div_cancel_left count positive
    have rounded : (size * count + size - 1) / size = count := by
      rw [Nat.add_sub_assoc positive,Nat.mul_add_div positive,
        Nat.div_eq_of_lt (Nat.sub_lt positive Nat.one_pos),Nat.add_zero]
    rw [whole,rounded]

end Blocks

section Announced

variable {Precision : Type} (build : Build)

/-- The blocking that a blocked layout gives a tensor. -/
def announced (N C H W : Nat) : BlockingDesc :=
  ⟨[N,C / build.blockSize,H,W,build.blockSize],[0,1,2,3,1]⟩

private theorem fillPort_append (port : List (DataConfig Precision)) (conf : DataConfigurator)
    (data : Option (Data Precision)) :
    fillPort port conf data = (fillPort [] conf data).map fun added => port ++ added := by
  cases data with
  | none => rfl
  | some data =>
    unfold fillPort
    dsimp only
    split
    · split
      · rfl
      · rfl
    · split
      · rfl
      · rfl

theorem fillPort_blocked {conf : DataConfigurator} (blocked : conf.layout = build.layout)
    (precision : Precision) (N C H W : Nat) : fillPort [] conf (some ⟨precision,[N,C,H,W]⟩) =
      .ok [⟨conf.inplace,conf.constant,⟨precision,[N,C,H,W],some (announced build N C H W)⟩⟩] := by
  have either : conf.layout = .blk8 ∨ conf.layout = .blk16 := by
    rw [blocked]
    cases build <;> decide
  unfold fillPort
  dsimp only
  rw [if_pos either,if_neg (by simp),blocked,build.layout_blkSize]
  rfl

private theorem fillPort_single {conf : DataConfigurator} {data : Option (Data Precision)}
    {ports : List (DataConfig Precision)} (filled : fillPort [] conf data = .ok ports) :
    ∃ port, ports = [port] := by
  cases data with
  | none => cases filled
  | some data =>
    unfold fillPort at filled
    dsimp only at filled
    split at filled
    · split at filled
      · cases filled
      · cases filled
        exact ⟨_,rfl⟩
    · split at filled
      · cases filled
        exact ⟨_,rfl⟩
      · cases filled
        exact ⟨_,rfl⟩

/-- Each edge of a layer is described by itself. -/
theorem foldlM_fillPort {edges : List (DataConfigurator × Option (Data Precision))}
    {before ports : List (DataConfig Precision)}
    (filled : edges.foldlM (fun port edge => fillPort port edge.1 edge.2) before = .ok ports) :
    ∃ added, ports = before ++ added ∧
      List.Forall₂ (fun edge port => fillPort [] edge.1 edge.2 = .ok [port]) edges added := by
  induction edges generalizing before with
  | nil =>
    cases filled
    exact ⟨[],(List.append_nil _).symm,.nil⟩
  | cons edge edges ih =>
    rw [List.foldlM_cons,fillPort_append] at filled
    cases first : fillPort [] edge.1 edge.2 with
    | error message =>
      rw [first] at filled
      cases filled
    | ok described =>
      rw [first] at filled
      obtain ⟨port,rfl⟩ := fillPort_single first
      obtain ⟨added,rfl,each⟩ := ih filled
      exact ⟨port :: added,List.append_assoc _ _ _,.cons first each⟩

/-- addConfig appends one configuration, which describes each edge by itself. -/
theorem addConfig_ports {layer : CnnLayer Precision} {confs after : List (LayerConfig Precision)}
    {inL outL : List DataConfigurator} {dynBatchSupport : Bool}
    (added : addConfig layer confs inL outL dynBatchSupport = .ok after) :
    ∃ config : LayerConfig Precision, after = confs ++ [config] ∧
      List.Forall₂ (fun edge port => fillPort [] edge.1 edge.2 = .ok [port])
        (inL.zip layer.insData) config.inConfs ∧
      List.Forall₂ (fun edge port => fillPort [] edge.1 edge.2 = .ok [port])
        (outL.zip layer.outData) config.outConfs := by
  unfold addConfig at added
  split at added
  · cases added
  split at added
  · cases added
  cases inputs : fillPorts inL layer.insData with
  | error message =>
    rw [inputs] at added
    cases added
  | ok inConfs =>
    cases outputs : fillPorts outL layer.outData with
    | error message =>
      rw [inputs,outputs] at added
      cases added
    | ok outConfs =>
      rw [inputs,outputs] at added
      cases added
      obtain ⟨_,rfl,eachIn⟩ := foldlM_fillPort inputs
      obtain ⟨_,rfl,eachOut⟩ := foldlM_fillPort outputs
      exact ⟨_,rfl,eachIn,eachOut⟩

end Announced

end VideoAnalytics.BlockedLayout
