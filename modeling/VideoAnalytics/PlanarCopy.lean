import VideoAnalytics.Library.Copying

/-! The copy of a decoded surface into the frame buffer in DecodeThreadFunc: the
three planes of an RGBP surface, row by row, into imgbuf. Every byte that is
read or written is recorded. vsource_frame_init keeps 3 * w * h in an int, so
that no product here wraps. -/
namespace VideoAnalytics.PlanarCopy
open Loop Memory

inductive Plane
  | b | g | r
  deriving DecidableEq, Repr

structure FrameInfo where
  width : Nat
  height : Nat
  cropX : Nat
  cropY : Nat
  cropW : Nat
  cropH : Nat
  pitch : Nat

structure Copy (α : Type) where
  imgbuf : Memory α
  read : List (Plane × Nat)
  written : List Nat

def FrameInfo.w (info : FrameInfo) : Nat :=
  if info.cropH > 0 ∧ info.cropW > 0 then info.cropW else info.width

def FrameInfo.h (info : FrameInfo) : Nat :=
  if info.cropH > 0 ∧ info.cropW > 0 then info.cropH else info.height

variable {α : Type}

def memcpy (planes : Plane → Memory α) (plane : Plane) (target source size : Nat) (copy : Copy α) :
    Copy α :=
  forLoop size (fun j copy =>
    {imgbuf := copy.imgbuf.write (target + j) (planes plane (source + j))
     read := copy.read ++ [(plane,source + j)]
     written := copy.written ++ [target + j]}) copy

def copyRows (planes : Plane → Memory α) (info : FrameInfo) (plane : Plane)
    (pTemp ptr rows : Nat) (copy : Copy α) : Copy α :=
  forLoop rows (fun i copy =>
    memcpy planes plane (pTemp + i * info.w) (ptr + i * info.pitch) info.w copy) copy

/-- The first loop counts its rows up to the width. -/
def copyPlanes (planes : Plane → Memory α) (info : FrameInfo) (imgbuf : Memory α) : Copy α :=
  let w := info.w
  let h := info.h
  let ptr := info.cropX + info.cropY * info.pitch
  let copy := copyRows planes info .b 0 ptr w ⟨imgbuf,[],[]⟩
  let copy := copyRows planes info .g (w * h) ptr h copy
  copyRows planes info .r (2 * w * h) ptr h copy

def FrameInfo.source (info : FrameInfo) (i j : Nat) : Nat :=
  info.cropX + (info.cropY + i) * info.pitch + j

/-- What one loop reads and writes. -/
structure RowsCopied (planes : Plane → Memory α) (info : FrameInfo) (plane : Plane)
    (pTemp rows : Nat) (before after : Copy α) : Prop where
  value : ∀ i j, i < rows → j < info.w →
    after.imgbuf (pTemp + (i * info.w + j)) = planes plane (info.source i j)
  only : before.imgbuf.OnlyIn after.imgbuf pTemp (rows * info.w)
  read : ∀ access, access ∈ after.read ↔ access ∈ before.read ∨
    ∃ i j, i < rows ∧ j < info.w ∧ access = (plane,info.source i j)
  written : ∀ address, address ∈ after.written ↔ address ∈ before.written ∨
    ∃ i j, i < rows ∧ j < info.w ∧ address = pTemp + (i * info.w + j)

private theorem FrameInfo.source_row (info : FrameInfo) (i j : Nat) :
    info.cropX + info.cropY * info.pitch + i * info.pitch + j = info.source i j := by
  unfold source
  ring

def Copy.recorded (copy : Copy α) : Copying.Copy (Plane × Nat) α :=
  ⟨copy.imgbuf,copy.read,copy.written⟩

private theorem copyRows_recorded (planes : Plane → Memory α) (info : FrameInfo) (plane : Plane)
    (pTemp rows : Nat) (before : Copy α) :
    Copying.Copied (fun place => planes place.1 place.2)
      (Copying.grid info.w fun i j => (plane,info.source i j)) pTemp (rows * info.w)
      before.recorded
      (copyRows planes info plane pTemp (info.cropX + info.cropY * info.pitch) rows
        before).recorded := by
  unfold copyRows
  rw [forLoop_map Copy.recorded rows _ (fun i => forLoop info.w fun j =>
    Copying.Copy.put (fun place => planes place.1 place.2) (pTemp + (i * info.w + j))
      (plane,info.source i j))]
  · exact Copying.forLoop_grid _ fun _ _ _ => rfl
  · intro i copy
    unfold memcpy
    apply forLoop_map
    intro j copy
    rw [info.source_row,Nat.add_assoc]
    rfl

private theorem copyRows_copied (planes : Plane → Memory α) (info : FrameInfo) (plane : Plane)
    (pTemp rows : Nat) (before : Copy α) :
    RowsCopied planes info plane pTemp rows before
      (copyRows planes info plane pTemp (info.cropX + info.cropY * info.pitch) rows before) := by
  have copied := copyRows_recorded planes info plane pTemp rows before
  refine ⟨?_,copied.only,copied.read_grid,?_⟩
  · intro i j low inside
    exact copied.cell low inside
  · intro address
    have written := copied.written address
    rw [Copying.exists_cell] at written
    exact written

def FrameInfo.rows (info : FrameInfo) : Plane → Nat
  | .b => info.w
  | .g => info.h
  | .r => info.h

def FrameInfo.pTemp (info : FrameInfo) : Plane → Nat
  | .b => 0
  | .g => info.w * info.h
  | .r => 2 * info.w * info.h

private theorem copyPlanes_copied (planes : Plane → Memory α) (info : FrameInfo)
    (imgbuf : Memory α) :
    ∃ afterB afterG, RowsCopied planes info .b (info.pTemp .b) (info.rows .b) ⟨imgbuf,[],[]⟩ afterB ∧
      RowsCopied planes info .g (info.pTemp .g) (info.rows .g) afterB afterG ∧
      RowsCopied planes info .r (info.pTemp .r) (info.rows .r) afterG
        (copyPlanes planes info imgbuf) :=
  ⟨_,_,copyRows_copied planes info .b 0 info.w _,copyRows_copied planes info .g _ info.h _,
    copyRows_copied planes info .r _ info.h _⟩

private theorem copyPlanes_b (planes : Plane → Memory α) (info : FrameInfo) (imgbuf : Memory α)
    (i j : Nat) (low : i < info.h) (inside : j < info.w) :
    (copyPlanes planes info imgbuf).imgbuf (i * info.w + j) =
      if i < info.w then planes .b (info.source i j) else imgbuf (i * info.w + j) := by
  obtain ⟨afterB,afterG,first,second,third⟩ := copyPlanes_copied planes info imgbuf
  have before : i * info.w + j < info.w * info.h := by
    rw [Nat.mul_comm info.w]
    exact cell_within low inside
  have twice : 2 * info.w * info.h = info.w * info.h + info.w * info.h := by ring
  rw [third.only _ (.inl (by simp only [FrameInfo.pTemp]; omega)),
    second.only _ (.inl (by simp only [FrameInfo.pTemp]; omega))]
  by_cases copied : i < info.w
  · rw [if_pos copied]
    have value := first.value i j copied inside
    rw [show info.pTemp .b = 0 from rfl,Nat.zero_add] at value
    exact value
  · rw [if_neg copied]
    apply first.only
    right
    have rows : info.w * info.w ≤ i * info.w := Nat.mul_le_mul_right _ (by omega)
    simp only [FrameInfo.pTemp,FrameInfo.rows]
    omega

private theorem copyPlanes_g (planes : Plane → Memory α) (info : FrameInfo) (imgbuf : Memory α)
    (i j : Nat) (low : i < info.h) (inside : j < info.w) :
    (copyPlanes planes info imgbuf).imgbuf (info.w * info.h + (i * info.w + j)) =
      planes .g (info.source i j) := by
  obtain ⟨afterB,afterG,first,second,third⟩ := copyPlanes_copied planes info imgbuf
  have before : i * info.w + j < info.w * info.h := by
    rw [Nat.mul_comm info.w]
    exact cell_within low inside
  have twice : 2 * info.w * info.h = info.w * info.h + info.w * info.h := by ring
  rw [third.only _ (.inl (by simp only [FrameInfo.pTemp]; omega))]
  exact second.value i j low inside

private theorem copyPlanes_r (planes : Plane → Memory α) (info : FrameInfo) (imgbuf : Memory α)
    (i j : Nat) (low : i < info.h) (inside : j < info.w) :
    (copyPlanes planes info imgbuf).imgbuf (2 * info.w * info.h + (i * info.w + j)) =
      planes .r (info.source i j) := by
  obtain ⟨afterB,afterG,first,second,third⟩ := copyPlanes_copied planes info imgbuf
  exact third.value i j low inside

private theorem copyPlanes_read (planes : Plane → Memory α) (info : FrameInfo) (imgbuf : Memory α)
    (plane : Plane) (address : Nat) :
    (plane,address) ∈ (copyPlanes planes info imgbuf).read ↔
      ∃ i j, i < info.rows plane ∧ j < info.w ∧ address = info.source i j := by
  obtain ⟨afterB,afterG,first,second,third⟩ := copyPlanes_copied planes info imgbuf
  rw [third.read,second.read,first.read]
  cases plane with
  | b => simp
  | g => simp
  | r => simp

private theorem copyPlanes_written (planes : Plane → Memory α) (info : FrameInfo)
    (imgbuf : Memory α) (address : Nat) :
    address ∈ (copyPlanes planes info imgbuf).written ↔
      ∃ plane i j, i < info.rows plane ∧ j < info.w ∧
        address = info.pTemp plane + (i * info.w + j) := by
  obtain ⟨afterB,afterG,first,second,third⟩ := copyPlanes_copied planes info imgbuf
  rw [third.written,second.written,first.written]
  constructor
  · rintro (((none | copied) | copied) | copied)
    · simp at none
    · exact ⟨.b,copied⟩
    · exact ⟨.g,copied⟩
    · exact ⟨.r,copied⟩
  · rintro ⟨plane,copied⟩
    cases plane with
    | b => exact .inl (.inl (.inr copied))
    | g => exact .inl (.inr copied)
    | r => exact .inr copied

/-- The frame buffer holds exactly the cropped planes, one after the other. -/
structure Exact (planes : Plane → Memory α) (info : FrameInfo) (copy : Copy α) : Prop where
  b : ∀ i j, i < info.h → j < info.w →
    copy.imgbuf (i * info.w + j) = planes .b (info.source i j)
  g : ∀ i j, i < info.h → j < info.w →
    copy.imgbuf (info.w * info.h + (i * info.w + j)) = planes .g (info.source i j)
  r : ∀ i j, i < info.h → j < info.w →
    copy.imgbuf (2 * info.w * info.h + (i * info.w + j)) = planes .r (info.source i j)
  written : ∀ address, address ∈ copy.written → address < 3 * info.w * info.h
  read : ∀ plane address, (plane,address) ∈ copy.read → ∃ row, info.cropY ≤ row ∧
    row < info.cropY + info.h ∧ row * info.pitch ≤ address ∧
      address < row * info.pitch + info.pitch

private theorem source_in_row (info : FrameInfo) (i j : Nat) (inside : j < info.w)
    (fits : info.cropX + info.w ≤ info.pitch) (row : Nat)
    (low : row * info.pitch ≤ info.source i j)
    (high : info.source i j < row * info.pitch + info.pitch) : row = info.cropY + i := by
  by_contra other
  unfold FrameInfo.source at low high
  rcases cell_apart info.pitch other with before | after
  · omega
  · omega

private theorem exact_narrow {planes : Plane → Memory α} {info : FrameInfo} {imgbuf : Memory α}
    (wide : 1 ≤ info.w) (fits : info.cropX + info.w ≤ info.pitch)
    (exact : Exact planes info (copyPlanes planes info imgbuf)) : info.w ≤ info.h := by
  by_contra wider
  have read : (Plane.b,info.source info.h 0) ∈ (copyPlanes planes info imgbuf).read :=
    (copyPlanes_read ..).mpr ⟨info.h,0,Nat.lt_of_not_le wider,wide,rfl⟩
  obtain ⟨row,above,below,low,within⟩ := exact.read _ _ read
  have beyond := source_in_row info info.h 0 wide fits row low within
  omega

section Narrow

variable (planes : Plane → Memory α) (info : FrameInfo) (imgbuf : Memory α)
  (narrow : info.w ≤ info.h)

include narrow

omit planes imgbuf in
private theorem rows_le (plane : Plane) : info.rows plane ≤ info.h := by
  cases plane with
  | b => exact narrow
  | g => exact Nat.le_refl _
  | r => exact Nat.le_refl _

private theorem narrow_written (address : Nat)
    (written : address ∈ (copyPlanes planes info imgbuf).written) :
    address < 3 * info.w * info.h := by
  obtain ⟨plane,i,j,low,inside,rfl⟩ := (copyPlanes_written ..).mp written
  have within : i * info.w + j < info.h * info.w :=
    cell_within (Nat.lt_of_lt_of_le low (rows_le info narrow plane)) inside
  have last : info.pTemp plane ≤ 2 * info.w * info.h := by
    cases plane with
    | b => exact Nat.zero_le _
    | g => exact Nat.mul_le_mul_right _ (by omega)
    | r => exact Nat.le_refl _
  calc info.pTemp plane + (i * info.w + j) < 2 * info.w * info.h + info.h * info.w := by omega
    _ = 3 * info.w * info.h := by ring

private theorem narrow_read (fits : info.cropX + info.w ≤ info.pitch) (plane : Plane)
    (address : Nat)
    (read : (plane,address) ∈ (copyPlanes planes info imgbuf).read) : ∃ row, info.cropY ≤ row ∧
      row < info.cropY + info.h ∧ row * info.pitch ≤ address ∧
        address < row * info.pitch + info.pitch := by
  obtain ⟨i,j,low,inside,rfl⟩ := (copyPlanes_read ..).mp read
  have below := rows_le info narrow plane
  refine ⟨info.cropY + i,by omega,by omega,?_,?_⟩
  · unfold FrameInfo.source
    omega
  · unfold FrameInfo.source
    omega

end Narrow

/-- The copy is exact when the width is not above the height and the rows of B
that its loop leaves out were there before. -/
theorem planar_copy_exact_iff (planes : Plane → Memory α) (info : FrameInfo) (imgbuf : Memory α)
    (wide : 1 ≤ info.w) (fits : info.cropX + info.w ≤ info.pitch) :
    Exact planes info (copyPlanes planes info imgbuf) ↔ info.w ≤ info.h ∧
      ∀ i j, info.w ≤ i → i < info.h → j < info.w →
        imgbuf (i * info.w + j) = planes .b (info.source i j) := by
  constructor
  · intro exact
    refine ⟨exact_narrow wide fits exact,?_⟩
    intro i j skipped low inside
    have value := exact.b i j low inside
    rw [copyPlanes_b planes info imgbuf i j low inside,if_neg (by omega)] at value
    exact value
  · rintro ⟨narrow,stale⟩
    refine ⟨?_,copyPlanes_g planes info imgbuf,copyPlanes_r planes info imgbuf,
      narrow_written planes info imgbuf narrow,narrow_read planes info imgbuf narrow fits⟩
    intro i j low inside
    rw [copyPlanes_b planes info imgbuf i j low inside]
    by_cases copied : i < info.w
    · rw [if_pos copied]
    · rw [if_neg copied]
      exact stale i j (by omega) low inside

theorem planar_copy_exact_square :
    Exact (fun _ => id) (FrameInfo.mk 2 2 1 1 2 2 4) (copyPlanes (fun _ => id)
      (FrameInfo.mk 2 2 1 1 2 2 4) fun _ => 0) :=
  (planar_copy_exact_iff (fun _ => id) (FrameInfo.mk 2 2 1 1 2 2 4) (fun _ => 0) (by decide)
    (by decide)).mpr ⟨by decide,by
      intro i j skipped low inside
      have square : (FrameInfo.mk 2 2 1 1 2 2 4).w = (FrameInfo.mk 2 2 1 1 2 2 4).h := rfl
      omega⟩

/-- On a surface four wide and one high the first loop writes four rows: past
the end of the buffer, and from below the plane. -/
theorem planar_copy_overruns : ¬ ∀ (info : FrameInfo) (planes : Plane → Memory Nat)
    (imgbuf : Memory Nat), 1 ≤ info.w → 1 ≤ info.h → info.cropX + info.w ≤ info.pitch →
    Exact planes info (copyPlanes planes info imgbuf) := by
  intro claimed
  have exact := claimed (FrameInfo.mk 4 1 0 0 4 1 4) (fun _ => id) (fun _ => 0) (by decide)
    (by decide) (by decide)
  have within := exact.written 12 (by decide)
  revert within
  decide

end VideoAnalytics.PlanarCopy
