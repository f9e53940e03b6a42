import VideoAnalytics.Library.Copying
import VideoAnalytics.PlanarCopy

/-! The copy of an NV12 surface into the tracker's buffer in WriteRawFrameToMemory:
the rows of Y, then every second byte of UV from 0 and from 1 on. The products are
those of offsets into a surface, which stay in an int. -/
namespace VideoAnalytics.Nv12Copy
open Loop Memory Copying
open PlanarCopy (FrameInfo)

inductive Plane
  | y | uv
  deriving DecidableEq, Repr

variable {α : Type}

/-- A byte of the surface: its plane and its address there. -/
abbrev Place := Plane × Nat

def memcpy (planes : Plane → Memory α) (target : Nat) (plane : Plane) (source size : Nat)
    (copy : Copy Place α) : Copy Place α :=
  forLoop size (fun k => Copy.put (fun place => planes place.1 place.2) (target + k)
    (plane,source + k)) copy

structure Chroma (α : Type) where
  copy : Copy Place α
  ipos : Nat

/-- How often a loop over j from the first in steps of two runs below w. -/
def passes (first w : Nat) : Nat := (w - first + 1) / 2

def copyChroma (planes : Plane → Memory α) (info : FrameInfo) (first : Nat) (chroma : Chroma α) :
    Chroma α :=
  let h := info.cropH / 2
  let w := info.cropW
  forLoop h (fun i => forLoop (passes first w) fun p chroma =>
    let j := first + 2 * p
    let source := info.cropY * info.pitch / 2 + info.cropX + i * info.pitch + j
    {copy := memcpy planes chroma.ipos .uv source 1 chroma.copy
     ipos := chroma.ipos + 1}) chroma

def copyLuma (planes : Plane → Memory α) (info : FrameInfo) (copy : Copy Place α) :
    Copy Place α :=
  forLoop info.cropH (fun i => memcpy planes (i * info.cropW) .y
    (info.cropY * info.pitch + info.cropX + i * info.pitch) info.cropW) copy

def writeRawFrameToMemory (planes : Plane → Memory α) (info : FrameInfo) (dest : Memory α) :
    Copy Place α :=
  let iYsize := info.cropH * info.cropW
  let copy := copyLuma planes info ⟨dest,[],[]⟩
  (copyChroma planes info 1 (copyChroma planes info 0 ⟨copy,iYsize⟩)).copy

def ySample (planes : Plane → Memory α) (info : FrameInfo) (row col : Nat) : α :=
  planes .y (row * info.pitch + col)

def uSample (planes : Plane → Memory α) (info : FrameInfo) (row col : Nat) : α :=
  planes .uv (row * info.pitch + 2 * col)

def vSample (planes : Plane → Memory α) (info : FrameInfo) (row col : Nat) : α :=
  planes .uv (row * info.pitch + 2 * col + 1)

/-- The row of the plane at which a luma row of the surface has its samples. -/
def Plane.row (luma : Nat) : Plane → Nat
  | .y => luma
  | .uv => luma / 2

def InCrop (info : FrameInfo) (place : Place) : Prop :=
  ∃ row col, place.1.row info.cropY ≤ row ∧ row < place.1.row (info.cropY + info.cropH) ∧
    info.cropX ≤ col ∧ col < info.cropX + info.cropW ∧ col < info.pitch ∧
      place.2 = row * info.pitch + col

/-- The buffer holds the crop as I420, and nothing else has been touched or read. -/
structure Converted (planes : Plane → Memory α) (info : FrameInfo) (dest : Memory α)
    (copy : Copy Place α) : Prop where
  y : ∀ i j, i < info.cropH → j < info.cropW → copy.dest (i * info.cropW + j) =
    ySample planes info (info.cropY + i) (info.cropX + j)
  u : ∀ i j, i < info.cropH / 2 → j < info.cropW / 2 →
    copy.dest (info.cropW * info.cropH + (i * (info.cropW / 2) + j)) =
      uSample planes info (info.cropY / 2 + i) (info.cropX / 2 + j)
  v : ∀ i j, i < info.cropH / 2 → j < info.cropW / 2 →
    copy.dest (info.cropW * info.cropH + info.cropW * info.cropH / 4 +
      (i * (info.cropW / 2) + j)) =
        vSample planes info (info.cropY / 2 + i) (info.cropX / 2 + j)
  only : dest.OnlyIn copy.dest 0 (3 * (info.cropW * info.cropH) / 2)
  written : ∀ address, address ∈ copy.written ↔
    address < 3 * (info.cropW * info.cropH) / 2
  read : ∀ place ∈ copy.read, InCrop info place

section Loops

variable (planes : Plane → Memory α) (info : FrameInfo)

abbrev sample (place : Place) : α := planes place.1 place.2

def ySource (i k : Nat) : Place :=
  (.y,info.cropY * info.pitch + info.cropX + i * info.pitch + k)

def uvSource (first i p : Nat) : Place :=
  (.uv,info.cropY * info.pitch / 2 + info.cropX + i * info.pitch + (first + 2 * p))

private theorem copyLuma_copied (before : Copy Place α) :
    Copied (sample planes) (grid info.cropW (ySource info)) 0 (info.cropH * info.cropW) before
      (copyLuma planes info before) := by
  apply forLoop_grid fun i k => Copy.put (sample planes) (i * info.cropW + k) (ySource info i k)
  intro i k copy
  rw [Nat.zero_add]

private theorem memcpy_one (target source : Nat) (plane : Plane) (copy : Copy Place α) :
    memcpy planes target plane source 1 copy = copy.put (sample planes) target (plane,source) := rfl

private theorem copyChroma_copied (first : Nat) (chroma : Chroma α) :
    let after := copyChroma planes info first chroma
    let cols := passes first info.cropW
    let count := info.cropH / 2 * cols
    Copied (sample planes) (grid cols (uvSource info first)) chroma.ipos count
      chroma.copy after.copy ∧ after.ipos = chroma.ipos + count := by
  unfold copyChroma
  dsimp only
  rw [forLoop_nested (info.cropH / 2) (passes first info.cropW)]
  apply forLoop_induct fun count (after : Chroma α) =>
    Copied (sample planes) (grid (passes first info.cropW) (uvSource info first)) chroma.ipos count
      chroma.copy after.copy ∧ after.ipos = chroma.ipos + count
  · exact ⟨Copied.start,rfl⟩
  · intro n after within copied
    obtain ⟨copied,ipos⟩ := copied
    rw [memcpy_one,ipos]
    exact ⟨copied.next,rfl⟩

private theorem writeRawFrameToMemory_copied (dest : Memory α) : ∃ afterY afterU,
    let size := info.cropH * info.cropW
    let us := info.cropH / 2 * passes 0 info.cropW
    let vs := info.cropH / 2 * passes 1 info.cropW
    Copied (sample planes) (grid info.cropW (ySource info)) 0 size ⟨dest,[],[]⟩ afterY ∧
      Copied (sample planes) (grid (passes 0 info.cropW) (uvSource info 0)) size us afterY afterU ∧
      Copied (sample planes) (grid (passes 1 info.cropW) (uvSource info 1)) (size + us) vs afterU
        (writeRawFrameToMemory planes info dest) := by
  let luma := copyLuma planes info ⟨dest,[],[]⟩
  have second := copyChroma_copied planes info 0 ⟨luma,info.cropH * info.cropW⟩
  have third := copyChroma_copied planes info 1
    (copyChroma planes info 0 ⟨luma,info.cropH * info.cropW⟩)
  rw [second.2] at third
  exact ⟨luma,_,copyLuma_copied planes info _,second.1,third.1⟩

end Loops

/-- What the crop of an NV12 surface has even. -/
structure EvenCrop (info : FrameInfo) : Prop where
  cropX : 2 ∣ info.cropX
  cropY : 2 ∣ info.cropY
  cropW : 2 ∣ info.cropW
  cropH : 2 ∣ info.cropH

section Sources

variable {info : FrameInfo}

private theorem ySource_sample (planes : Plane → Memory α) (i j : Nat) :
    sample planes (ySource info i j) = ySample planes info (info.cropY + i) (info.cropX + j) := by
  simp only [ySource,ySample]
  ring_nf

private theorem ySource_inCrop (fits : info.cropX + info.cropW ≤ info.pitch) {i j : Nat}
    (low : i < info.cropH) (inside : j < info.cropW) : InCrop info (ySource info i j) := by
  refine ⟨info.cropY + i,info.cropX + j,?_,?_,by omega,by omega,by omega,?_⟩
  · simp only [ySource,Plane.row]
    omega
  · simp only [ySource,Plane.row]
    omega
  · simp only [ySource]
    ring

variable (even : EvenCrop info)
include even

private theorem passes_even (first : Nat) (low : first < 2) :
    passes first info.cropW = info.cropW / 2 := by
  obtain ⟨cols,wide⟩ := even.cropW
  unfold passes
  omega

private theorem uvSource_eq (first i p : Nat) : uvSource info first i p =
    (.uv,(info.cropY / 2 + i) * info.pitch + (info.cropX + first + 2 * p)) := by
  obtain ⟨y,high⟩ := even.cropY
  have half : info.cropY * info.pitch / 2 = y * info.pitch := by
    rw [high,Nat.mul_assoc,Nat.mul_div_cancel_left _ (by decide)]
  have row : info.cropY / 2 = y := by omega
  have address : y * info.pitch + info.cropX + i * info.pitch + (first + 2 * p) =
      (y + i) * info.pitch + (info.cropX + first + 2 * p) := by ring
  unfold uvSource
  rw [half,row,address]

private theorem uvSource_sample (planes : Plane → Memory α) (i p : Nat) :
    sample planes (uvSource info 0 i p) =
        uSample planes info (info.cropY / 2 + i) (info.cropX / 2 + p) ∧
      sample planes (uvSource info 1 i p) =
        vSample planes info (info.cropY / 2 + i) (info.cropX / 2 + p) := by
  obtain ⟨x,left⟩ := even.cropX
  have column : 2 * (info.cropX / 2 + p) = info.cropX + 2 * p := by omega
  simp only [uvSource_eq even,uSample,vSample,column]
  constructor
  · ring_nf
  · ring_nf

private theorem uvSource_inCrop (fits : info.cropX + info.cropW ≤ info.pitch) {first i p : Nat}
    (half : first < 2) (low : i < info.cropH / 2) (inside : p < info.cropW / 2) :
    InCrop info (uvSource info first i p) := by
  obtain ⟨y,high⟩ := even.cropY
  obtain ⟨rows,tall⟩ := even.cropH
  rw [uvSource_eq even]
  refine ⟨info.cropY / 2 + i,info.cropX + first + 2 * p,?_,?_,by omega,by omega,by omega,rfl⟩
  · simp only [Plane.row]
    omega
  · simp only [Plane.row]
    omega

end Sources

/-- The tracker's buffer gets the crop of the NV12 surface as I420, and nothing else
is written or read. -/
theorem nv12_converted (planes : Plane → Memory α) (info : FrameInfo) (dest : Memory α)
    (even : EvenCrop info) (fits : info.cropX + info.cropW ≤ info.pitch) :
    Converted planes info dest (writeRawFrameToMemory planes info dest) := by
  obtain ⟨afterY,afterU,luma,us,vs⟩ := writeRawFrameToMemory_copied planes info dest
  have quarter : info.cropH / 2 * (info.cropW / 2) * 4 = info.cropW * info.cropH := by
    obtain ⟨cols,wide⟩ := even.cropW
    obtain ⟨rows,tall⟩ := even.cropH
    rw [wide,tall,Nat.mul_div_cancel_left _ (by decide),Nat.mul_div_cancel_left _ (by decide)]
    ring
  have fourth : info.cropW * info.cropH / 4 = info.cropH / 2 * (info.cropW / 2) := by omega
  have size := Nat.mul_comm info.cropH info.cropW
  rw [passes_even even 0 (by decide),size] at us
  rw [passes_even even 0 (by decide),passes_even even 1 (by decide),size] at vs
  refine ⟨?_,?_,?_,?_,?_,?_⟩
  · intro i j low inside
    have within := cell_within low inside
    have value := luma.cell low inside
    rw [Nat.zero_add] at value
    rw [vs.only _ (by omega),us.only _ (by omega),value,ySource_sample]
  · intro i j low inside
    have within := cell_within low inside
    rw [vs.only _ (by omega),us.cell low inside,(uvSource_sample even planes i j).1]
  · intro i j low inside
    rw [fourth,vs.cell low inside,(uvSource_sample even planes i j).2]
  · have first := luma.only.wider (Nat.zero_le 0)
      (by omega : 0 + _ ≤ 0 + 3 * (info.cropW * info.cropH) / 2)
    have second := us.only.wider (Nat.zero_le _)
      (by omega : _ ≤ 0 + 3 * (info.cropW * info.cropH) / 2)
    have third := vs.only.wider (Nat.zero_le _)
      (by omega : _ ≤ 0 + 3 * (info.cropW * info.cropH) / 2)
    exact (first.trans second).trans third
  · intro address
    rw [vs.written_iff,us.written_iff,luma.written_iff]
    simp only [List.not_mem_nil,false_or]
    omega
  · intro place member
    rcases (vs.read_grid place).mp member with member | ⟨i,j,low,inside,rfl⟩
    · rcases (us.read_grid place).mp member with member | ⟨i,j,low,inside,rfl⟩
      · rcases (luma.read_grid place).mp member with member | ⟨i,j,low,inside,rfl⟩
        · simp at member
        · exact ySource_inCrop fits low inside
      · exact uvSource_inCrop even fits (by decide) low inside
    · exact uvSource_inCrop even fits (by decide) low inside

theorem nv12_converted_inner :
    Converted (fun plane address => (plane,address)) (FrameInfo.mk 8 8 2 2 4 2 8)
      (fun _ => (.y,0)) (writeRawFrameToMemory (fun plane address => (plane,address))
        (FrameInfo.mk 8 8 2 2 4 2 8) fun _ => (.y,0)) :=
  nv12_converted _ (FrameInfo.mk 8 8 2 2 4 2 8) _
    ⟨by decide,by decide,by decide,by decide⟩ (by decide)

example : (List.range 12).map (writeRawFrameToMemory (fun plane address => (plane,address))
    (FrameInfo.mk 8 8 2 2 4 2 8) fun _ => (.y,0)).dest =
      [(.y,18),(.y,19),(.y,20),(.y,21),(.y,26),(.y,27),(.y,28),(.y,29),
        (.uv,10),(.uv,12),(.uv,11),(.uv,13)] := by decide

end VideoAnalytics.Nv12Copy
