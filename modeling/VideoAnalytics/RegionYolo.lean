import VideoAnalytics.Softmax
import VideoAnalytics.ExtLayer
import Mathlib.Algebra.BigOperators.Field
import Mathlib.Analysis.SpecialFunctions.Exp

/-! The RegionYolo layer of the CPU extension on tensors of so many entries. The entries that
are activated are recorded in order. -/
namespace VideoAnalytics.RegionYolo
open Loop Memory Lanes BlockedLayout Softmax

structure Impl where
  classes : Nat
  coords : Nat
  num : Nat

def entryIndex (width height coords classes outputs batch location entry : Nat) : Nat :=
  let n := location / (width * height)
  let loc := location % (width * height)
  batch * outputs + n * width * height * (coords + classes + 1) + entry * width * height + loc

section Execute

variable {F : Type} [FloatType F] [Neg F] (exp : F → F)

def logisticActivate (x : F) : F := ((1 : Int) : F) / (((1 : Int) : F) + exp (-x))

/-- memcpy of so many floats. -/
def copyFloats (count entries : Nat) (src dst : Memory F) : Except Outside (Memory F) :=
  if count ≤ entries then .ok fun address => if address < count then src address else dst address
  else .error (.at entries)

/-- A loop over dst_data from an index on. -/
def activateRange (entries index count : Nat) (canvas : Canvas F) : Except Outside (Canvas F) :=
  tryLoop count (fun k canvas => do
    let x : Lanes 1 F ← loadu entries canvas.dst (index + k)
    let dst ← storeu entries canvas.dst (index + k) fun lane => logisticActivate exp (x lane)
    return ⟨dst,canvas.transformed ++ [index + k]⟩) canvas

def activateAnchor (impl : Impl) (entries IH IW inputsSize b n : Nat) (canvas : Canvas F) :
    Except Outside (Canvas F) := do
  let index := entryIndex IW IH impl.coords impl.classes inputsSize b (n * IW * IH) 0
  let canvas ← activateRange exp entries index (2 * IW * IH) canvas
  let index := entryIndex IW IH impl.coords impl.classes inputsSize b (n * IW * IH) impl.coords
  activateRange exp entries index (IW * IH) canvas

def execute (build : Build) (impl : Impl) (entries : Nat) (src dst : ExtBlob F) :
    Except Outside (Canvas F) := do
  let IW := src.dims.getD 3 1
  let IH := src.dims.getD 2 1
  let IC := src.dims.getD 1 1
  let B := src.dims.getD 0 1
  let copied ← copyFloats (B * IC * IH * IW) entries src.data dst.data
  let inputsSize := IH * IW * impl.num * (impl.classes + impl.coords + 1)
  let canvas ← tryLoop B (fun b => tryLoop impl.num fun n =>
    activateAnchor exp impl entries IH IW inputsSize b n) ⟨copied,[]⟩
  let index := entryIndex IW IH impl.coords impl.classes inputsSize 0 0 (impl.coords + 1)
  let batchOffset := inputsSize / impl.num
  tryLoop (B * impl.num) (fun b =>
    softmaxGeneric exp build entries src.data (index + b * batchOffset) 1 impl.classes IH IW) canvas

/-- One element activated. -/
def activate (index : Nat) (canvas : Canvas F) : Canvas F :=
  ⟨canvas.dst.write index (logisticActivate exp (canvas.dst index)),canvas.transformed ++ [index]⟩

private theorem activateRange_loop {entries index count : Nat} (within : index + count ≤ entries)
    (canvas : Canvas F) : activateRange exp entries index count canvas =
      .ok (forLoop count (fun k => activate exp (index + k)) canvas) := by
  apply tryLoop_forLoop
  intro k canvas low
  have place : index + k + 1 ≤ entries := by omega
  have stored := storeu_single canvas.dst (logisticActivate exp (canvas.dst (index + k))) place
  rw [loadu_within _ place]
  show (do
    let dst ← storeu entries canvas.dst (index + k) fun lane : Fin 1 =>
      logisticActivate exp (canvas.dst (index + k + lane))
    return (⟨dst,canvas.transformed ++ [index + k]⟩ : Canvas F)) = _
  simp only [Fin.val_eq_zero,Nat.add_zero]
  rw [stored]
  rfl

/-- A range of elements activated. -/
def activateAll (index count : Nat) (canvas : Canvas F) : Canvas F :=
  ⟨fun address => if index ≤ address ∧ address < index + count then
      logisticActivate exp (canvas.dst address) else canvas.dst address,
    canvas.transformed ++ List.range' index count⟩

private theorem activateRange_eq {entries index count : Nat} (within : index + count ≤ entries)
    (canvas : Canvas F) :
    activateRange exp entries index count canvas = .ok (activateAll exp index count canvas) := by
  have values := forLoop_map Canvas.dst count (fun k => activate exp (index + k)) (fun k memory =>
    memory.write (index + k) (logisticActivate exp (memory (index + k)))) canvas fun k canvas => rfl
  have places := forLoop_map Canvas.transformed count (fun k => activate exp (index + k))
    (fun k log => log ++ [index + k]) canvas fun k canvas => rfl
  rw [forLoop_records] at places
  have same : forLoop count (fun k => activate exp (index + k)) canvas =
      activateAll exp index count canvas := by
    unfold activateAll
    rw [← places]
    calc _ = (⟨(forLoop count (fun k => activate exp (index + k)) canvas).dst,
          (forLoop count (fun k => activate exp (index + k)) canvas).transformed⟩ : Canvas F) := rfl
      _ = _ := by
        congr 1
        rw [values]
        ext address
        exact forLoop_update index count (fun _ => logisticActivate exp) canvas.dst address
  rw [activateRange_loop exp within,same]

end Execute

section Indices

variable {impl : Impl} {IH IW : Nat}

/-- The entries of an anchor at a location. -/
def Impl.entries (impl : Impl) : Nat := impl.classes + impl.coords + 1

/-- An element by the number of its anchor among those of all images. -/
def cell (impl : Impl) (IH IW g e l : Nat) : Nat := (g * impl.entries + e) * (IH * IW) + l

private theorem entryIndex_anchor (impl : Impl) (some : 0 < IH * IW) (b n entry : Nat) :
    entryIndex IW IH impl.coords impl.classes (IH * IW * impl.num * (impl.classes + impl.coords + 1)) b
      (n * IW * IH) entry = cell impl IH IW (b * impl.num + n) entry 0 := by
  have area : 0 < IW * IH := by rwa [Nat.mul_comm]
  unfold entryIndex cell Impl.entries
  dsimp only
  rw [Nat.mul_assoc n,Nat.mul_div_cancel n area,Nat.mul_mod_left]
  ring

private theorem cell_lt {anchors g e l : Nat} (anchor : g < anchors) (entry : e < impl.entries)
    (place : l < IH * IW) : cell impl IH IW g e l < anchors * impl.entries * (IH * IW) :=
  cell_within (cell_within anchor entry) place

/-- So many entries of an anchor lie within the tensor. -/
theorem entries_within (IH IW : Nat) {anchors g e count : Nat} (anchor : g < anchors)
    (fits : e + count ≤ impl.entries) :
    cell impl IH IW g e 0 + count * (IH * IW) ≤ anchors * impl.entries * (IH * IW) := by
  have last := Nat.mul_le_mul_right impl.entries (Nat.succ_le_of_lt anchor)
  rw [Nat.succ_mul] at last
  unfold cell
  rw [Nat.add_zero,← Nat.add_mul]
  exact Nat.mul_le_mul_right _ (by omega)

/-- Which elements lie in a range of entries of an anchor. -/
theorem cell_range {g e l anchor first count : Nat} (entry : e < impl.entries) (place : l < IH * IW)
    (fits : first + count ≤ impl.entries) :
    (cell impl IH IW anchor first 0 ≤ cell impl IH IW g e l ∧
      cell impl IH IW g e l < cell impl IH IW anchor first 0 + count * (IH * IW)) ↔
        g = anchor ∧ first ≤ e ∧ e < first + count := by
  have rows : ∀ x y : Nat, (y * (IH * IW) + 0 ≤ x * (IH * IW) + l ∧
      x * (IH * IW) + l < y * (IH * IW) + 0 + count * (IH * IW)) ↔ y ≤ x ∧ x < y + count := by
    intro x y
    rw [Nat.add_zero,← Nat.add_mul]
    constructor
    · rintro ⟨low,high⟩
      constructor
      · by_contra above
        have apart := Nat.mul_le_mul_right (IH * IW) (Nat.succ_le_of_lt (Nat.not_le.mp above))
        rw [Nat.succ_mul] at apart
        omega
      · by_contra above
        have apart := Nat.mul_le_mul_right (IH * IW) (Nat.not_lt.mp above)
        omega
    · rintro ⟨low,high⟩
      exact ⟨Nat.le_add_right_of_le (Nat.mul_le_mul_right _ low),cell_within high place⟩
  unfold cell
  rw [rows]
  by_cases same : g = anchor
  · subst same
    omega
  · have apart := cell_apart impl.entries same
    omega

private theorem cell_add (g e c l : Nat) : cell impl IH IW g (e + c) l =
    cell impl IH IW g e 0 + (c * (IH * IW) + l) := by
  unfold cell
  ring

private theorem exists_cell {anchors address : Nat}
    (low : address < anchors * impl.entries * (IH * IW)) :
    ∃ g e l, g < anchors ∧ e < impl.entries ∧ l < IH * IW ∧ cell impl IH IW g e l = address := by
  have area : 0 < IH * IW := Nat.pos_of_lt_mul_left low
  have rows : address / (IH * IW) < anchors * impl.entries :=
    Nat.div_lt_of_lt_mul (by rwa [Nat.mul_comm (IH * IW)])
  have some : 0 < impl.entries := Nat.pos_of_lt_mul_left rows
  refine ⟨address / (IH * IW) / impl.entries,address / (IH * IW) % impl.entries,address % (IH * IW),
    Nat.div_lt_of_lt_mul (by rwa [Nat.mul_comm impl.entries]),Nat.mod_lt _ some,Nat.mod_lt _ area,?_⟩
  unfold cell
  rw [Nat.div_add_mod',Nat.div_add_mod']

end Indices

section Passes

variable {F : Type} [FloatType F] [Neg F] (exp : F → F) {impl : Impl} {IH IW anchors entries : Nat}

/-- The entries of an anchor that are activated one by one. -/
def activateEntries (impl : Impl) (IH IW g : Nat) (canvas : Canvas F) : Canvas F :=
  activateAll exp (cell impl IH IW g impl.coords 0) (1 * (IH * IW))
    (activateAll exp (cell impl IH IW g 0 0) (2 * (IH * IW)) canvas)

private theorem activateAnchor_eq (some : 0 < IH * IW) (coordinates : 2 ≤ impl.coords)
    (room : anchors * impl.entries * (IH * IW) ≤ entries) {b n : Nat}
    (anchor : b * impl.num + n < anchors) (canvas : Canvas F) :
    activateAnchor exp impl entries IH IW
        (IH * IW * impl.num * (impl.classes + impl.coords + 1)) b n canvas =
      .ok (activateEntries exp impl IH IW (b * impl.num + n) canvas) := by
  have first := entries_within IH IW anchor
    (show 0 + 2 ≤ impl.entries by unfold Impl.entries; omega)
  have second := entries_within IH IW anchor
    (show impl.coords + 1 ≤ impl.entries by unfold Impl.entries; omega)
  have double : 2 * IW * IH = 2 * (IH * IW) := by ring
  have single : IW * IH = 1 * (IH * IW) := by ring
  unfold activateAnchor
  dsimp only
  rw [entryIndex_anchor impl some,entryIndex_anchor impl some,double,single,
    activateRange_eq exp (first.trans room)]
  exact activateRange_eq exp (second.trans room) _

/-- The first anchors have their entries 0, 1 and coords activated. -/
structure Activated (impl : Impl) (IH IW : Nat) (src : Memory F) (passes : Nat) (canvas : Canvas F) :
    Prop where
  cells : ∀ g e l, e < impl.entries → l < IH * IW →
    canvas.dst (cell impl IH IW g e l) =
      if g < passes ∧ (e < 2 ∨ e = impl.coords) then
        logisticActivate exp (src (cell impl IH IW g e l))
      else src (cell impl IH IW g e l)
  length : canvas.transformed.length = passes * (3 * (IH * IW))
  covered : ∀ g e l, g < passes → l < IH * IW → (e < 2 ∨ e = impl.coords) →
    cell impl IH IW g e l ∈ canvas.transformed

private theorem activateAll_cell {g e l anchor first count : Nat} (entry : e < impl.entries)
    (place : l < IH * IW) (fits : first + count ≤ impl.entries) (canvas : Canvas F) :
    (activateAll exp (cell impl IH IW anchor first 0) (count * (IH * IW)) canvas).dst
        (cell impl IH IW g e l) =
      if g = anchor ∧ first ≤ e ∧ e < first + count then
        logisticActivate exp (canvas.dst (cell impl IH IW g e l))
      else canvas.dst (cell impl IH IW g e l) := if_congr (cell_range entry place fits) rfl rfl

private theorem activateAll_mem {g e l anchor first count : Nat} (entry : e < impl.entries)
    (place : l < IH * IW) (fits : first + count ≤ impl.entries) (canvas : Canvas F) :
    cell impl IH IW g e l ∈
        (activateAll exp (cell impl IH IW anchor first 0) (count * (IH * IW)) canvas).transformed ↔
      cell impl IH IW g e l ∈ canvas.transformed ∨ g = anchor ∧ first ≤ e ∧ e < first + count := by
  unfold activateAll
  rw [List.mem_append,List.mem_range'_1,cell_range entry place fits]

private theorem activateEntries_activated (coordinates : 2 ≤ impl.coords) {src : Memory F} {g : Nat}
    {canvas : Canvas F} (activated : Activated exp impl IH IW src g canvas) :
    Activated exp impl IH IW src (g + 1) (activateEntries exp impl IH IW g canvas) := by
  have first : 0 + 2 ≤ impl.entries := by unfold Impl.entries; omega
  have second : impl.coords + 1 ≤ impl.entries := by unfold Impl.entries; omega
  unfold activateEntries
  constructor
  · intro anchor e l entry place
    rw [activateAll_cell exp entry place second,activateAll_cell exp entry place first,
      activated.cells anchor e l entry place]
    by_cases here : anchor = g
    · subst here
      by_cases low : e < 2
      · rw [if_neg (by omega),if_pos (by omega),if_neg (by omega),if_pos (by omega)]
      · by_cases last : e = impl.coords
        · rw [if_pos (by omega),if_neg (by omega),if_neg (by omega),if_pos (by omega)]
        · rw [if_neg (by omega),if_neg (by omega),if_neg (by omega),if_neg (by omega)]
    · rw [if_neg (by omega),if_neg (by omega)]
      apply if_congr _ rfl rfl
      omega
  · unfold activateAll
    dsimp only
    rw [List.length_append,List.length_append,activated.length,List.length_range',List.length_range']
    ring
  · intro anchor e l low place which
    have entry : e < impl.entries := by unfold Impl.entries; omega
    rw [activateAll_mem exp entry place second,activateAll_mem exp entry place first]
    by_cases earlier : anchor < g
    · exact .inl (.inl (activated.covered anchor e l earlier place which))
    · omega

/-- The softmax of the classes of an anchor at a location. -/
def classesAt (impl : Impl) (IH IW : Nat) (src : Memory F) (g e l : Nat) : F :=
  softAt exp src (cell impl IH IW g (impl.coords + 1) 0) impl.classes (IH * IW)
    (e - (impl.coords + 1)) l

/-- The first anchors have the softmax of their classes. -/
structure Classified (impl : Impl) (IH IW : Nat) (src : Memory F) (before : Canvas F) (passes : Nat)
    (canvas : Canvas F) : Prop where
  cells : ∀ g e l, e < impl.entries → l < IH * IW →
    canvas.dst (cell impl IH IW g e l) =
      if g < passes ∧ impl.coords < e then classesAt exp impl IH IW src g e l
      else before.dst (cell impl IH IW g e l)
  recorded : ∃ places, canvas.transformed = before.transformed ++ places ∧
    places.length = passes * (impl.classes * (IH * IW)) ∧
    ∀ g e l, g < passes → impl.coords < e → e < impl.entries → l < IH * IW →
      cell impl IH IW g e l ∈ places

omit [Neg F] in
private theorem softmax_classified (build : Build) (classes : 1 ≤ impl.classes)
    (room : anchors * impl.entries * (IH * IW) ≤ entries) {src : Memory F} {before canvas : Canvas F}
    {g : Nat} (anchor : g < anchors) (classified : Classified exp impl IH IW src before g canvas) :
    ∃ after, softmaxGeneric exp build entries src (cell impl IH IW g (impl.coords + 1) 0) 1
        impl.classes IH IW canvas = .ok after ∧
      Classified exp impl IH IW src before (g + 1) after := by
  have fits : impl.coords + 1 + impl.classes ≤ impl.entries := by unfold Impl.entries; omega
  have within := entries_within IH IW anchor fits
  obtain ⟨after,run,cells,only,places,recorded,tiles⟩ := softmaxImage_eq exp build src
    classes (within.trans room) canvas
  refine ⟨after,(softmaxGeneric_single exp build canvas).trans run,?_,?_⟩
  · intro other e l entry place
    have range : _ ↔ other = g ∧ _ := cell_range entry place fits
    by_cases inside : other = g ∧ impl.coords + 1 ≤ e
    · obtain ⟨rfl,above⟩ := inside
      obtain ⟨c,rfl⟩ := Nat.exists_eq_add_of_le above
      have low : c < impl.classes := by
        unfold Impl.entries at entry
        omega
      unfold classesAt
      rw [if_pos (by omega),Nat.add_sub_cancel_left,cell_add,cells c l low place]
    · have outside : ¬(other = g ∧ impl.coords + 1 ≤ e ∧ e < impl.coords + 1 + impl.classes) := by
        omega
      rw [← range] at outside
      rw [only _ (by omega),classified.cells other e l entry place]
      apply if_congr _ rfl rfl
      omega
  · obtain ⟨earlier,before_recorded,length,covered⟩ := classified.recorded
    refine ⟨earlier ++ places,?_,?_,?_⟩
    · rw [recorded,before_recorded,List.append_assoc]
    · have count := List.Perm.length_eq tiles
      rw [List.length_range'] at count
      rw [List.length_append,length,count]
      ring
    · intro other e l low above entry place
      rw [List.mem_append]
      by_cases here : other = g
      · right
        subst here
        exact tiles.mem_iff.mpr ((cell_range entry place fits).mpr (by unfold Impl.entries at entry; omega))
      · exact .inl (covered other e l (by omega) above entry place)

/-- The entries that keep their input. -/
def untouched (impl : Impl) (IH IW anchors : Nat) : List Nat :=
  (List.range anchors).flatMap fun g =>
    List.range' (cell impl IH IW g 2 0) ((impl.coords - 2) * (IH * IW))

private theorem mem_untouched {g e l : Nat} (anchor : g < anchors) (entry : e < impl.entries)
    (place : l < IH * IW) (coordinates : 2 ≤ impl.coords) :
    cell impl IH IW g e l ∈ untouched impl IH IW anchors ↔ 2 ≤ e ∧ e < impl.coords := by
  have fits : 2 + (impl.coords - 2) ≤ impl.entries := by unfold Impl.entries; omega
  unfold untouched
  rw [List.mem_flatMap]
  constructor
  · rintro ⟨other,-,member⟩
    rw [List.mem_range'_1,cell_range entry place fits] at member
    omega
  · intro middle
    refine ⟨g,List.mem_range.mpr anchor,?_⟩
    rw [List.mem_range'_1,cell_range entry place fits]
    omega

/-- The three passes and what they leave alone make up the tensor. -/
theorem passes_tile {src other : Memory F} {middle after : Canvas F} (coordinates : 2 ≤ impl.coords)
    (activated : Activated exp impl IH IW other anchors middle)
    (classified : Classified exp impl IH IW src middle anchors after) :
    Tiles 0 (anchors * impl.entries * (IH * IW))
      (after.transformed ++ untouched impl IH IW anchors) := by
  obtain ⟨places,recorded,length,covered⟩ := classified.recorded
  apply tiles_of_covers
  · obtain ⟨more,sum⟩ := Nat.exists_eq_add_of_le coordinates
    rw [recorded,List.length_append,List.length_append,activated.length,length]
    unfold untouched Impl.entries
    rw [sum]
    simp [List.length_flatMap]
    ring
  · intro address _ low
    rw [Nat.zero_add] at low
    obtain ⟨g,e,l,anchor,entry,place,rfl⟩ := exists_cell low
    rw [recorded,List.mem_append,List.mem_append,mem_untouched anchor entry place coordinates]
    by_cases single : e < 2 ∨ e = impl.coords
    · exact .inl (.inl (activated.covered g e l anchor place single))
    · by_cases behind : impl.coords < e
      · exact .inl (.inr (covered g e l anchor behind entry place))
      · right
        omega

end Passes

/-- The sizes of a tensor for the layer. -/
structure Sized (impl : Impl) (dims : List Nat) (B IH IW : Nat) : Prop where
  images : dims.getD 0 1 = B
  channels : dims.getD 1 1 = impl.num * impl.entries
  rows : dims.getD 2 1 = IH
  columns : dims.getD 3 1 = IW
  anchors : 1 ≤ impl.num
  classes : 1 ≤ impl.classes
  coords : 2 ≤ impl.coords
  some_rows : 1 ≤ IH
  some_columns : 1 ≤ IW

section Execute

variable {F : Type} [FloatType F] [Neg F] (exp : F → F) {impl : Impl} {B IH IW : Nat}

/-- Each entry of an anchor at a location: the logistic of the input for 0, 1 and coords, the
softmax of the classes behind coords, and the input itself for the others. -/
def regionAt (impl : Impl) (IH IW : Nat) (src : Memory F) (g e l : Nat) : F :=
  if impl.coords < e then classesAt exp impl IH IW src g e l
  else if e < 2 ∨ e = impl.coords then logisticActivate exp (src (cell impl IH IW g e l))
  else src (cell impl IH IW g e l)

/-- The first pass over all images, on a copy of the input. -/
theorem images_activated (impl : Impl) (B : Nat) {entries : Nat} (some : 0 < IH * IW)
    (coordinates : 2 ≤ impl.coords) (room : B * impl.num * impl.entries * (IH * IW) ≤ entries)
    (copied : Memory F) :
    ∃ middle, tryLoop B (fun b => tryLoop impl.num fun n =>
        activateAnchor exp impl entries IH IW
          (IH * IW * impl.num * (impl.classes + impl.coords + 1)) b n) ⟨copied,[]⟩ = .ok middle ∧
      Activated exp impl IH IW copied (B * impl.num) middle := by
  refine ⟨forLoop (B * impl.num) (activateEntries exp impl IH IW) ⟨copied,[]⟩,?_,?_⟩
  · refine (@tryLoop_forLoop (Canvas F) Outside B _ (fun b => forLoop impl.num fun n =>
      activateEntries exp impl IH IW (b * impl.num + n)) _ ?_).trans ?_
    · intro b canvas image
      apply tryLoop_forLoop
      intro n canvas anchor
      exact activateAnchor_eq exp some coordinates room (cell_within image anchor) canvas
    · rw [forLoop_nested]
      congr 1
      apply forLoop_congr
      intro g canvas _
      rw [Nat.div_add_mod']
  · apply forLoop_induct (Activated exp impl IH IW copied)
    · refine ⟨?_,by simp,?_⟩
      · intro g e l _ _
        rw [if_neg (by omega)]
      · intro g e l none
        omega
    · intro g canvas _ activated
      exact activateEntries_activated exp coordinates activated

omit [Neg F] in
/-- The pass over the classes of all anchors. -/
theorem anchors_classified (build : Build) {anchors entries : Nat} (classes : 1 ≤ impl.classes)
    (room : anchors * impl.entries * (IH * IW) ≤ entries) (src : Memory F) (middle : Canvas F) :
    ∃ after, tryLoop anchors (fun g => softmaxGeneric exp build entries src
        (cell impl IH IW 0 (impl.coords + 1) 0 + g * (IH * IW * impl.entries)) 1 impl.classes IH IW)
        middle = .ok after ∧ Classified exp impl IH IW src middle anchors after := by
  have pointer : ∀ g, cell impl IH IW 0 (impl.coords + 1) 0 + g * (IH * IW * impl.entries) =
      cell impl IH IW g (impl.coords + 1) 0 := by
    intro g
    unfold cell
    ring
  apply tryLoop_induct (Classified exp impl IH IW src middle)
  · refine ⟨?_,[],(List.append_nil _).symm,by simp,?_⟩
    · intro g e l _ _
      rw [if_neg (by omega)]
    · intro g e l none
      omega
  · intro g canvas anchor classified
    rw [pointer]
    exact softmax_classified exp build classes room anchor classified

/-- The layer makes a copy of its input, activates entries of it and then puts the softmax of
the classes over theirs. -/
theorem execute_passes (build : Build) (src dst : ExtBlob F) (sized : Sized impl src.dims B IH IW) :
    ∃ copied middle after,
      execute exp build impl (B * (impl.num * impl.entries) * IH * IW) src dst = .ok after ∧
      (∀ address < B * impl.num * impl.entries * (IH * IW), copied address = src.data address) ∧
      Activated exp impl IH IW copied (B * impl.num) middle ∧
      Classified exp impl IH IW src.data middle (B * impl.num) after := by
  have some : 0 < IH * IW := Nat.mul_pos sized.some_rows sized.some_columns
  have total : B * (impl.num * impl.entries) * IH * IW =
      B * impl.num * impl.entries * (IH * IW) := by ring
  have index : entryIndex IW IH impl.coords impl.classes
      (IH * IW * impl.num * (impl.classes + impl.coords + 1)) 0 0 (impl.coords + 1) =
        cell impl IH IW 0 (impl.coords + 1) 0 := by
    have origin := entryIndex_anchor impl some 0 0 (impl.coords + 1)
    simp only [Nat.zero_mul,Nat.add_zero] at origin
    exact origin
  have offset : IH * IW * impl.num * (impl.classes + impl.coords + 1) / impl.num =
      IH * IW * impl.entries := by
    rw [Nat.mul_right_comm,Nat.mul_div_cancel _ sized.anchors]
    rfl
  obtain ⟨middle,first,activated⟩ := images_activated exp impl B some sized.coords total.ge
    fun address => if address < B * (impl.num * impl.entries) * IH * IW then src.data address
      else dst.data address
  obtain ⟨after,second,classified⟩ :=
    anchors_classified exp build sized.classes total.ge src.data middle
  refine ⟨_,middle,after,?_,?_,activated,classified⟩
  · unfold execute copyFloats
    dsimp only
    rw [sized.images,sized.channels,sized.rows,sized.columns,index,offset,if_pos (Nat.le_refl _)]
    show (tryLoop B _ _).bind _ = _
    rw [first]
    exact second
  · intro address low
    exact if_pos (low.trans_eq total.symm)

private theorem execute_cells (build : Build) (src dst : ExtBlob F)
    (sized : Sized impl src.dims B IH IW) :
    ∃ after, execute exp build impl (B * (impl.num * impl.entries) * IH * IW) src dst = .ok after ∧
      (∀ g e l, g < B * impl.num → e < impl.entries → l < IH * IW →
        after.dst (cell impl IH IW g e l) = regionAt exp impl IH IW src.data g e l) ∧
      after.transformed.Nodup ∧
      ∀ g e l, g < B * impl.num → e < impl.entries → l < IH * IW →
        (cell impl IH IW g e l ∈ after.transformed ↔ e < 2 ∨ impl.coords ≤ e) := by
  obtain ⟨copied,middle,after,ran,copies,activated,classified⟩ :=
    execute_passes exp build src dst sized
  have tiles := passes_tile exp sized.coords activated classified
  obtain ⟨once,-,apart⟩ := List.nodup_append.mp tiles.nodup
  refine ⟨after,ran,?_,once,?_⟩
  · intro g e l anchor entry place
    rw [classified.cells g e l entry place,activated.cells g e l entry place,
      copies _ (cell_lt anchor entry place)]
    unfold regionAt
    apply if_congr (and_iff_right anchor) rfl
    exact if_congr (and_iff_right anchor) rfl rfl
  · intro g e l anchor entry place
    have member := tiles.mem_iff.mpr ⟨Nat.zero_le _,(cell_lt anchor entry place).trans_eq
      (Nat.zero_add _).symm⟩
    have alone := mem_untouched anchor entry place sized.coords
    rw [List.mem_append] at member
    constructor
    · intro there
      by_contra middle_entry
      exact apart _ there _ (alone.mpr (by omega)) rfl
    · intro which
      exact member.resolve_right (by rw [alone]; omega)

end Execute

section Exact

open Finset

variable {impl : Impl} {B IH IW : Nat}

/-- Subtracting the greatest value beforehand leaves the softmax as it is. -/
theorem softAt_exp (src : Memory ℝ) (base C HW c l : Nat) :
    softAt Real.exp src base C HW c l = Real.exp (src (base + (c * HW + l))) /
      ∑ k ∈ range C, Real.exp (src (base + (k * HW + l))) := by
  have shifted : ∀ k, expAt Real.exp src base C HW k l =
      Real.exp (src (base + (k * HW + l))) / Real.exp (maxAt src base C HW l) := by
    intro k
    exact Real.exp_sub _ _
  have sum : ∀ count, forLoop count (fun k sum => sum + expAt Real.exp src base C HW k l)
      ((0 : Int) : ℝ) = ∑ k ∈ range count, expAt Real.exp src base C HW k l := by
    intro count
    induction count with
    | zero => exact Int.cast_zero
    | succ count ih =>
      rw [sum_range_succ,← ih]
      rfl
  have total : sumAt Real.exp src base C HW l =
      (∑ k ∈ range C, Real.exp (src (base + (k * HW + l)))) / Real.exp (maxAt src base C HW l) := by
    rw [sum_div]
    exact (sum C).trans (sum_congr rfl fun k _ => shifted k)
  calc softAt Real.exp src base C HW c l
      = expAt Real.exp src base C HW c l / sumAt Real.exp src base C HW l := rfl
    _ = _ := by
      rw [shifted,total]
      exact div_div_div_cancel_right₀ (Real.exp_pos _).ne' _ _

theorem execute_region (build : Build) (impl : Impl) (src dst : ExtBlob ℝ) (B IH IW : Nat)
    (sized : Sized impl src.dims B IH IW) :
    ∃ after, execute Real.exp build impl (B * (impl.num * impl.entries) * IH * IW) src dst =
        .ok after ∧
      (∀ b n l, b < B → n < impl.num → l < IH * IW →
        (∀ e, e < 2 ∨ e = impl.coords →
          after.dst (cell impl IH IW (b * impl.num + n) e l) =
            1 / (1 + Real.exp (-src.data (cell impl IH IW (b * impl.num + n) e l)))) ∧
        (∀ e, 2 ≤ e → e < impl.coords →
          after.dst (cell impl IH IW (b * impl.num + n) e l) =
            src.data (cell impl IH IW (b * impl.num + n) e l)) ∧
        ∀ c, c < impl.classes →
          after.dst (cell impl IH IW (b * impl.num + n) (impl.coords + 1 + c) l) =
            Real.exp (src.data (cell impl IH IW (b * impl.num + n) (impl.coords + 1 + c) l)) /
              ∑ k ∈ range impl.classes,
                Real.exp (src.data (cell impl IH IW (b * impl.num + n) (impl.coords + 1 + k) l))) ∧
      after.transformed.Nodup ∧
      ∀ b n e l, b < B → n < impl.num → e < impl.entries → l < IH * IW →
        (cell impl IH IW (b * impl.num + n) e l ∈ after.transformed ↔ e < 2 ∨ impl.coords ≤ e) := by
  obtain ⟨after,run,cells,once,transformed⟩ := execute_cells Real.exp build src dst sized
  have coordinates := sized.coords
  refine ⟨after,run,?_,once,?_⟩
  · intro b n l image anchor place
    have low := cell_within image anchor
    refine ⟨?_,?_,?_⟩
    · intro e single
      rw [cells _ e l low (by unfold Impl.entries; omega) place]
      unfold regionAt logisticActivate
      rw [if_neg (by omega),if_pos single,Int.cast_one]
    · intro e above below
      rw [cells _ e l low (by unfold Impl.entries; omega) place]
      unfold regionAt
      rw [if_neg (by omega),if_neg (by omega)]
    · intro c class_entry
      rw [cells _ _ l low (by unfold Impl.entries; omega) place]
      unfold regionAt classesAt
      rw [if_pos (by omega),softAt_exp,Nat.add_sub_cancel_left,← cell_add]
      simp only [← cell_add]
  · intro b n e l image anchor entry place
    exact transformed _ e l (cell_within image anchor) entry place

/-- The last anchor of two images with two anchors each. -/
theorem execute_region_last : ∃ after : Canvas ℝ,
    execute Real.exp .avx2 ⟨2,3,2⟩ 24 ⟨[2,12,1,1],fun address => address⟩
        ⟨[2,12,1,1],fun _ => 0⟩ = .ok after ∧
      after.dst 18 = 1 / (1 + Real.exp (-18)) ∧ after.dst 20 = 20 ∧
      after.dst 21 = 1 / (1 + Real.exp (-21)) ∧
      after.dst 22 = Real.exp 22 / (Real.exp 22 + Real.exp 23) ∧ after.transformed.Nodup := by
  obtain ⟨after,run,cells,once,-⟩ := execute_region .avx2 ⟨2,3,2⟩
    ⟨[2,12,1,1],fun address => address⟩ ⟨[2,12,1,1],fun _ => 0⟩ 2 1 1
    ⟨rfl,rfl,rfl,rfl,by decide,by decide,by decide,by decide,by decide⟩
  obtain ⟨single,kept,soft⟩ := cells 1 1 0 (by decide) (by decide) (by decide)
  have coordinate := single 0 (.inl (by decide))
  have confidence := single 3 (.inr rfl)
  have other := kept 2 (by decide) (by decide)
  have first := soft 0 (by decide)
  simp only [cell,Impl.entries,sum_range_succ,sum_range_zero] at coordinate confidence other first
  norm_num at coordinate confidence other first
  exact ⟨after,run,by simpa using coordinate,other,by simpa using confidence,first,once⟩

end Exact

end VideoAnalytics.RegionYolo
