import VideoAnalytics.BlockedLayout
import VideoAnalytics.ExtLayer
import VideoAnalytics.Library.Lanes

/-! The PReLU layer of the CPU extension, on tensors of so many entries. -/
namespace VideoAnalytics.PRelu
open Loop Memory BlockedLayout Lanes

section Execute

variable {F : Type} [FloatType F]

/-- A float through the layer, as the build computes it. -/
def activate (build : Build) (weight x : F) : F :=
  match build with
  | .plain => stdMax x ((0 : Int) : F) + weight * stdMin x ((0 : Int) : F)
  | .sse | .avx2 => if x > ((0 : Int) : F) then x else weight * x
  | .avx512 => if x < ((0 : Int) : F) then weight * x else x

/-- A block of channels of a pixel. -/
def activateBlock (build : Build) (weights : Memory F) (entries : Nat) (src : Memory F)
    (cBlock idx : Nat) (dst : Memory F) : Except Outside (Memory F) :=
  tryLoop (build.blockSize / build.width) (fun i dst => do
    let vsrc : Lanes build.width F ← loadu entries src (idx + i * build.width)
    storeu entries dst (idx + i * build.width) fun lane =>
      activate build (weights (cBlock + (i * build.width + lane))) (vsrc lane)) dst

/-- nChw8c format, or nChw16c -/
def executeBlocked (build : Build) (weights : Memory F) (entries B C H W : Nat) (src dst : Memory F) :
    Except Outside (Memory F) :=
  let CB := alignChannels C build.blockSize
  tryLoop B (fun b => tryLoop ((C + build.blockSize - 1) / build.blockSize) fun pass =>
    let cBlock := pass * build.blockSize
    tryLoop (H * W) fun i => activateBlock build weights entries src cBlock
      (b * CB * H * W + cBlock * H * W + build.blockSize * i)) dst

/-- nc format -/
def executePlanar (weights : Memory F) (entries B C : Nat) (src dst : Memory F) :
    Except Outside (Memory F) :=
  tryLoop B (fun b => tryLoop C fun c dst => do
    let x : Lanes 1 F ← loadu entries src (b * C + c)
    storeu entries dst (b * C + c) fun lane => activate .plain (weights c) (x lane)) dst

def execute (build : Build) (weights : Memory F) (entries : Nat) (inputs outputs : List (ExtBlob F)) :
    Except (ExtFailure ⊕ Outside) (Memory F) :=
  match inputs,outputs with
  | [src],dst :: _ =>
    let within := if src.dims.length = 4 then
        executeBlocked build weights entries (src.dim 0) (src.dim 1) (src.dim 2) (src.dim 3) src.data
          dst.data
      else executePlanar weights entries (src.dim 0) (src.dim 1) src.data dst.data
    within.mapError .inr
  | _,_ => .error (.inl incorrectEdges)

end Execute

/-- In exact arithmetic the builds compute the same. -/
theorem activate_build {F : Type} [Field F] [LinearOrder F] (build : Build) (weight x : F) :
    activate build weight x = if x < 0 then weight * x else x := by
  cases build with
  | plain =>
    simp only [activate,stdMax_eq,stdMin_eq,Int.cast_zero]
    split
    · next below => rw [max_eq_right below.le,min_eq_left below.le,zero_add]
    · next above =>
      rw [max_eq_left (not_lt.mp above),min_eq_right (not_lt.mp above),mul_zero,add_zero]
  | avx512 => simp only [activate,Int.cast_zero]
  | sse | avx2 =>
    simp only [activate,Int.cast_zero]
    rcases lt_trichotomy x 0 with below | zero | above
    · rw [if_neg (not_lt.mpr below.le),if_pos below]
    · subst zero
      simp
    · rw [if_pos above,if_neg (not_lt.mpr above.le)]

section Blocked

variable {F : Type} [FloatType F] (build : Build) (weights : Memory F) {entries B C H W : Nat}

/-- A pixel of a block lies within the tensor whose channels are rounded up. -/
theorem block_within {b pass i : Nat} (image : b < B)
    (block : pass < (C + build.blockSize - 1) / build.blockSize) (pixel : i < H * W) :
    b * alignChannels C build.blockSize * H * W + pass * build.blockSize * H * W +
        build.blockSize * i =
      ((b * ((C + build.blockSize - 1) / build.blockSize) + pass) * (H * W) + i) * build.blockSize ∧
    ((b * ((C + build.blockSize - 1) / build.blockSize) + pass) * (H * W) + i) * build.blockSize +
        build.blockSize ≤ B * alignChannels C build.blockSize * H * W := by
  have below := cell_within (cell_within image block) pixel
  have fits := Nat.mul_le_mul_right build.blockSize (Nat.succ_le_of_lt below)
  rw [Nat.succ_mul] at fits
  rw [alignChannels_build]
  refine ⟨by ring,fits.trans_eq (by ring)⟩

private theorem activateBlock_eq {idx cBlock : Nat} (src dst : Memory F)
    (within : idx + build.blockSize ≤ entries) :
    activateBlock build weights entries src cBlock idx dst =
      .ok (forLoop build.blockSize (fun c dst =>
        dst.write (idx + c) (activate build (weights (cBlock + c)) (src (idx + c)))) dst) := by
  unfold activateBlock
  refine (@tryLoop_blocks F build.width entries idx (build.blockSize / build.width)
    (fun c _ => activate build (weights (cBlock + c)) (src (idx + c))) _ ?_ ?_ dst).trans ?_
  · intro i memory piece
    have fits := build.piece_within piece
    rw [loadu_within _ (show idx + i * build.width + build.width ≤ entries by omega)]
    simp only [← Nat.add_assoc]
    rfl
  · rwa [build.width_pieces]
  · rw [build.width_pieces]

/-- With room for the rounded channels, the loops give each entry its activation and leave
everything else as it is. -/
theorem executeBlocked_eq (src dst : Memory F)
    (room : B * alignChannels C build.blockSize * H * W ≤ entries) :
    executeBlocked build weights entries B C H W src dst = .ok fun address =>
      if address < B * alignChannels C build.blockSize * H * W then
        activate build (weights (address / build.blockSize %
          ((C + build.blockSize - 1) / build.blockSize * (H * W)) / (H * W) * build.blockSize +
            address % build.blockSize)) (src address)
      else dst address := by
  have flat : executeBlocked build weights entries B C H W src dst =
      .ok (forLoop B (fun b => forLoop ((C + build.blockSize - 1) / build.blockSize) fun pass =>
        forLoop (H * W) fun i => forLoop build.blockSize fun c dst =>
          dst.write (((b * ((C + build.blockSize - 1) / build.blockSize) + pass) * (H * W) + i) *
              build.blockSize + c)
            (activate build (weights (pass * build.blockSize + c))
              (src (((b * ((C + build.blockSize - 1) / build.blockSize) + pass) * (H * W) + i) *
                build.blockSize + c)))) dst) := by
    apply tryLoop_forLoop
    intro b memory image
    apply tryLoop_forLoop
    intro pass memory block
    apply tryLoop_forLoop
    intro i memory pixel
    obtain ⟨place,within⟩ := block_within build image block pixel
    rw [place]
    exact activateBlock_eq build weights src memory (within.trans room)
  rw [flat,forLoop_planes,forLoop_nested]
  congr 1
  ext address
  have written := forLoop_write 0 (B * alignChannels C build.blockSize * H * W)
    (fun address => activate build (weights (address / build.blockSize %
      ((C + build.blockSize - 1) / build.blockSize * (H * W)) / (H * W) * build.blockSize +
        address % build.blockSize)) (src address)) dst address
  simp only [Nat.zero_add,Nat.zero_le,true_and,Nat.sub_zero] at written
  have count : B * ((C + build.blockSize - 1) / build.blockSize * (H * W)) * build.blockSize =
      B * alignChannels C build.blockSize * H * W := by
    rw [alignChannels_build]
    ring
  rw [← written,count]
  apply congrFun
  apply forLoop_congr
  intro n memory _
  have planes := Nat.div_add_mod' (n / build.blockSize)
    ((C + build.blockSize - 1) / build.blockSize * (H * W))
  have pixels := Nat.div_add_mod' (n / build.blockSize %
    ((C + build.blockSize - 1) / build.blockSize * (H * W))) (H * W)
  have place : (n / build.blockSize / ((C + build.blockSize - 1) / build.blockSize * (H * W)) *
      ((C + build.blockSize - 1) / build.blockSize) +
        n / build.blockSize % ((C + build.blockSize - 1) / build.blockSize * (H * W)) / (H * W)) *
      (H * W) + n / build.blockSize % ((C + build.blockSize - 1) / build.blockSize * (H * W)) %
        (H * W) = n / build.blockSize := by
    rw [Nat.add_mul,Nat.mul_assoc,Nat.add_assoc,pixels,planes]
  rw [place,Nat.div_add_mod']

end Blocked

end VideoAnalytics.PRelu
