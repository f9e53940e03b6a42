import VideoAnalytics.BlockedLayout
import VideoAnalytics.FloatType
import VideoAnalytics.Library.Lanes
import VideoAnalytics.Library.Stores

/-! softmax_generic of the CPU extension on arrays of so many entries. The entries that get
their final value are recorded in order. -/
namespace VideoAnalytics.Softmax
open Loop Memory Lanes BlockedLayout

variable {F : Type}

structure Canvas (F : Type) where
  dst : Memory F
  transformed : List Nat

/-- The lanes of the loop over blocks of places, which the plain build does not have. -/
def lanes : Build → Nat
  | .plain => 1
  | .sse => 4
  | _ => 8

def vectorPasses (build : Build) (HW : Nat) : Nat := if build = .plain then 0 else HW / lanes build

section Generic

variable [FloatType F] (exp : F → F)

def maxPass (width entries : Nat) (src : Memory F) (base HW i c : Nat) (vmax : Lanes width F) :
    Except Outside (Lanes width F) := do
  let vval : Lanes width F ← loadu entries src (base + (c * HW + i))
  return fun lane => if vval lane > vmax lane then vval lane else vmax lane

/-- For a single place the source adds up what it has just stored. -/
def sumPass (width entries : Nat) (src : Memory F) (base HW i : Nat) (vmax : Lanes width F) (c : Nat)
    (sums : Lanes width F × Memory F) : Except Outside (Lanes width F × Memory F) := do
  let vval : Lanes width F ← loadu entries src (base + (c * HW + i))
  let vres : Lanes width F := fun lane => exp (vval lane - vmax lane)
  let dst ← storeu entries sums.2 (base + (c * HW + i)) vres
  return (fun lane => sums.1 lane + vres lane,dst)

def dividePass (width entries base HW i : Nat) (vexpSum : Lanes width F) (c : Nat) (canvas : Canvas F) :
    Except Outside (Canvas F) := do
  let vval : Lanes width F ← loadu entries canvas.dst (base + (c * HW + i))
  let dst ← storeu entries canvas.dst (base + (c * HW + i)) fun lane => vval lane / vexpSum lane
  return ⟨dst,canvas.transformed ++ List.range' (base + (c * HW + i)) width⟩

/-- The classes of so many places from one on. -/
def softmaxColumns (width entries : Nat) (src : Memory F) (base C HW i : Nat) (canvas : Canvas F) :
    Except Outside (Canvas F) := do
  let vmax : Lanes width F ← loadu entries src (base + i)
  let vmax ← tryLoop C (maxPass width entries src base HW i) vmax
  let sums ← tryLoop C (sumPass exp width entries src base HW i vmax)
    (set1 ((0 : Int) : F),canvas.dst)
  tryLoop C (dividePass width entries base HW i sums.1) ⟨sums.2,canvas.transformed⟩

/-- The places of one image, in blocks and then one by one. -/
def softmaxImage (build : Build) (entries : Nat) (src : Memory F) (base C HW : Nat)
    (canvas : Canvas F) : Except Outside (Canvas F) := do
  let canvas ← tryLoop (vectorPasses build HW) (fun pass =>
    softmaxColumns exp (lanes build) entries src base C HW (pass * lanes build)) canvas
  let start := vectorPasses build HW * lanes build
  tryLoop (HW - start) (fun pass => softmaxColumns exp 1 entries src base C HW (start + pass)) canvas

/-- softmax_generic through pointers to an entry of both arrays. -/
def softmaxGeneric (build : Build) (entries : Nat) (src : Memory F) (pointer B C H W : Nat)
    (canvas : Canvas F) : Except Outside (Canvas F) :=
  tryLoop B (fun b => softmaxImage exp build entries src (pointer + b * C * H * W) C (H * W)) canvas

/-- The greatest value of a place. -/
def maxAt (src : Memory F) (base C HW l : Nat) : F :=
  forLoop C (fun c max =>
    if src (base + (c * HW + l)) > max then src (base + (c * HW + l)) else max) (src (base + l))

def expAt (src : Memory F) (base C HW c l : Nat) : F :=
  exp (src (base + (c * HW + l)) - maxAt src base C HW l)

def sumAt (src : Memory F) (base C HW l : Nat) : F :=
  forLoop C (fun c sum => sum + expAt exp src base C HW c l) ((0 : Int) : F)

/-- What the softmax gives an element of its block. -/
def softAt (src : Memory F) (base C HW c l : Nat) : F :=
  expAt exp src base C HW c l / sumAt exp src base C HW l

end Generic

section Block

variable {base C HW i width entries : Nat}

/-- The entries of a row at the places lie in one piece. -/
theorem row_within (room : base + C * HW ≤ entries) (fits : i + width ≤ HW) {c : Nat} (row : c < C) :
    base + (c * HW + i) + width ≤ entries := by
  have last := Nat.mul_le_mul_right HW (Nat.succ_le_of_lt row)
  rw [Nat.succ_mul] at last
  omega

/-- A store to a row at the places changes these entries of the block and no other. -/
theorem storeu_row (room : base + C * HW ≤ entries) (fits : i + width ≤ HW) {c : Nat} (row : c < C)
    (values : Nat → F) (memory : Memory F) :
    ∃ stored, storeu entries memory (base + (c * HW + i))
        (fun lane : Fin width => values (i + lane)) = .ok stored ∧
      (∀ other l, l < HW → stored (base + (other * HW + l)) =
        if other = c ∧ i ≤ l ∧ l < i + width then values l
        else memory (base + (other * HW + l))) ∧
      memory.OnlyIn stored base (C * HW) := by
  have within := row_within room fits row
  have last := Nat.mul_le_mul_right HW (Nat.succ_le_of_lt row)
  rw [Nat.succ_mul] at last
  refine ⟨_,if_pos within,?_,?_⟩
  · intro other l place
    dsimp only
    by_cases same : other = c
    · subst same
      by_cases inside : i ≤ l ∧ l < i + width
      · rw [dif_pos (by omega),if_pos ⟨rfl,inside⟩]
        congr 1
        omega
      · rw [dif_neg (by omega),if_neg (by omega)]
    · have apart := cell_apart HW same
      rw [dif_neg (by omega),if_neg (by omega)]
  · intro address outside
    exact dif_neg (by omega)

end Block

section Columns

variable [FloatType F] (exp : F → F) {src : Memory F} {base C HW i width entries : Nat}

/-- The greatest values of the places in the rows so far. -/
def Compared (src : Memory F) (base HW i width passes : Nat) (vmax : Lanes width F) : Prop :=
  ∀ lane : Fin width, vmax lane = forLoop passes (fun c max =>
    if src (base + (c * HW + (i + lane))) > max then src (base + (c * HW + (i + lane))) else max)
    (src (base + (i + lane)))

/-- The exponentials of the rows so far are stored at the places and added up. -/
structure Summed (src : Memory F) (base C HW i width : Nat) (dst : Memory F) (passes : Nat)
    (sums : Lanes width F × Memory F) : Prop where
  added : ∀ lane : Fin width, sums.1 lane = forLoop passes (fun c sum =>
    sum + expAt exp src base C HW c (i + lane)) ((0 : Int) : F)
  cells : ∀ c l, l < HW → sums.2 (base + (c * HW + l)) =
    if c < passes ∧ i ≤ l ∧ l < i + width then expAt exp src base C HW c l
    else dst (base + (c * HW + l))
  only : dst.OnlyIn sums.2 base (C * HW)

/-- The rows so far have their final values at the places, the others their exponentials. -/
structure Divided (src : Memory F) (base C HW i width : Nat) (before : Canvas F) (passes : Nat)
    (canvas : Canvas F) : Prop where
  cells : ∀ c l, c < C → l < HW → canvas.dst (base + (c * HW + l)) =
    if i ≤ l ∧ l < i + width then
      if c < passes then softAt exp src base C HW c l else expAt exp src base C HW c l
    else before.dst (base + (c * HW + l))
  only : before.dst.OnlyIn canvas.dst base (C * HW)
  recorded : canvas.transformed = before.transformed ++
    (List.range passes).flatMap fun c => List.range' (base + (c * HW + i)) width

private theorem maxPass_compared (room : base + C * HW ≤ entries) (fits : i + width ≤ HW) {c : Nat}
    (row : c < C) {vmax : Lanes width F} (compared : Compared src base HW i width c vmax) :
    ∃ after, maxPass width entries src base HW i c vmax = .ok after ∧
      Compared src base HW i width (c + 1) after := by
  unfold maxPass
  rw [loadu_within _ (row_within room fits row)]
  refine ⟨_,rfl,?_⟩
  intro lane
  simp only [compared lane,Nat.add_assoc]
  rfl

private theorem sumPass_summed (room : base + C * HW ≤ entries) (fits : i + width ≤ HW)
    {dst : Memory F} {c : Nat} (row : c < C) {sums : Lanes width F × Memory F}
    (summed : Summed exp src base C HW i width dst c sums) :
    ∃ after, sumPass exp width entries src base HW i (fun lane => maxAt src base C HW (i + lane)) c
        sums = .ok after ∧ Summed exp src base C HW i width dst (c + 1) after := by
  obtain ⟨stored,run,cells,only⟩ := storeu_row room fits row (expAt exp src base C HW c) sums.2
  have exponentials : (fun lane : Fin width =>
      exp (src (base + (c * HW + i) + lane) - maxAt src base C HW (i + lane))) =
        fun lane : Fin width => expAt exp src base C HW c (i + lane) := by
    ext lane
    unfold expAt
    simp only [Nat.add_assoc]
  unfold sumPass
  rw [loadu_within _ (row_within room fits row)]
  refine ⟨_,(congrArg (fun vres : Lanes width F => (do
    let dst ← storeu entries sums.2 (base + (c * HW + i)) vres
    return (fun lane => sums.1 lane + vres lane,dst) : Except Outside _)) exponentials).trans
      (by rw [run]; rfl),?_,?_,?_⟩
  · intro lane
    exact congrArg (· + expAt exp src base C HW c (i + lane)) (summed.added lane)
  · intro other l place
    dsimp only
    rw [cells other l place,summed.cells other l place]
    by_cases same : other = c
    · subst same
      by_cases inside : i ≤ l ∧ l < i + width
      · rw [if_pos ⟨rfl,inside⟩,if_pos ⟨Nat.lt_succ_self _,inside⟩]
      · rw [if_neg (by omega),if_neg (by omega),if_neg (by omega)]
    · rw [if_neg (by omega)]
      apply if_congr _ rfl rfl
      omega
  · exact summed.only.trans only

private theorem dividePass_divided (room : base + C * HW ≤ entries) (fits : i + width ≤ HW)
    {before : Canvas F} {c : Nat} (row : c < C) {canvas : Canvas F}
    (divided : Divided exp src base C HW i width before c canvas) :
    ∃ after, dividePass width entries base HW i
        (fun lane => sumAt exp src base C HW (i + lane)) c canvas = .ok after ∧
      Divided exp src base C HW i width before (c + 1) after := by
  obtain ⟨stored,run,cells,only⟩ := storeu_row room fits row (softAt exp src base C HW c) canvas.dst
  have quotients : (fun lane : Fin width => canvas.dst (base + (c * HW + i) + lane) /
      sumAt exp src base C HW (i + lane)) =
        fun lane : Fin width => softAt exp src base C HW c (i + lane) := by
    ext lane
    have low := lane.isLt
    rw [Nat.add_assoc base,Nat.add_assoc,divided.cells c (i + lane) row (by omega),
      if_pos (by omega),if_neg (Nat.lt_irrefl c)]
    rfl
  unfold dividePass
  rw [loadu_within _ (row_within room fits row)]
  refine ⟨_,(congrArg (fun values : Lanes width F => (do
    let dst ← storeu entries canvas.dst (base + (c * HW + i)) values
    return ⟨dst,canvas.transformed ++ List.range' (base + (c * HW + i)) width⟩ :
      Except Outside (Canvas F))) quotients).trans (by rw [run]; rfl),?_,?_,?_⟩
  · intro other l member place
    dsimp only
    rw [cells other l place,divided.cells other l member place]
    by_cases inside : i ≤ l ∧ l < i + width
    · rw [if_pos inside,if_pos inside]
      by_cases same : other = c
      · subst same
        rw [if_pos ⟨rfl,inside⟩,if_pos (Nat.lt_succ_self _)]
      · rw [if_neg (by omega)]
        apply if_congr _ rfl rfl
        omega
    · rw [if_neg inside,if_neg inside,if_neg (by omega)]
  · exact divided.only.trans only
  · dsimp only
    rw [divided.recorded,List.range_succ,List.flatMap_append,List.flatMap_singleton,
      List.append_assoc]

/-- A pass over places gives these their softmax and changes nothing else. -/
theorem softmaxColumns_eq (src : Memory F) (some : 1 ≤ C) (room : base + C * HW ≤ entries) (fits : i + width ≤ HW)
    (canvas : Canvas F) :
    ∃ after, softmaxColumns exp width entries src base C HW i canvas = .ok after ∧
      Divided exp src base C HW i width canvas C after := by
  have first := row_within room fits (show 0 < C by omega)
  rw [Nat.zero_mul,Nat.zero_add] at first
  obtain ⟨vmax,max_run,compared⟩ : ∃ vmax, tryLoop C (maxPass width entries src base HW i)
      (fun lane => src (base + i + lane)) = .ok vmax ∧ Compared src base HW i width C vmax := by
    apply tryLoop_induct (Compared src base HW i width)
    · intro lane
      simp only [Nat.add_assoc]
      rfl
    · intro c vmax row compared
      exact maxPass_compared room fits row compared
  have greatest : vmax = fun lane : Fin width => maxAt src base C HW (i + lane) := by
    ext lane
    exact compared lane
  obtain ⟨sums,sum_run,summed⟩ : ∃ sums, tryLoop C (sumPass exp width entries src base HW i vmax)
      (set1 ((0 : Int) : F),canvas.dst) = .ok sums ∧
        Summed exp src base C HW i width canvas.dst C sums := by
    rw [greatest]
    apply tryLoop_induct (Summed exp src base C HW i width canvas.dst)
    · refine ⟨fun lane => rfl,?_,OnlyIn.refl _ _ _⟩
      intro c l _
      rw [if_neg (by omega)]
    · intro c sums row summed
      exact sumPass_summed exp room fits row summed
  have added : sums.1 = fun lane : Fin width => sumAt exp src base C HW (i + lane) := by
    ext lane
    exact summed.added lane
  obtain ⟨after,divide_run,divided⟩ : ∃ after, tryLoop C (dividePass width entries base HW i sums.1)
      ⟨sums.2,canvas.transformed⟩ = .ok after ∧ Divided exp src base C HW i width canvas C after := by
    rw [added]
    apply tryLoop_induct (Divided exp src base C HW i width canvas)
    · refine ⟨?_,summed.only,?_⟩
      · intro c l row place
        dsimp only
        rw [summed.cells c l place,if_neg (Nat.not_lt_zero c)]
        apply if_congr _ rfl rfl
        omega
      · simp
    · intro c after row divided
      exact dividePass_divided exp room fits row divided
  refine ⟨after,?_,divided⟩
  unfold softmaxColumns
  rw [loadu_within _ first]
  show (do
    let vmax ← tryLoop C (maxPass width entries src base HW i) (fun lane => src (base + i + lane))
    let sums ← tryLoop C (sumPass exp width entries src base HW i vmax)
      (set1 ((0 : Int) : F),canvas.dst)
    tryLoop C (dividePass width entries base HW i sums.1) ⟨sums.2,canvas.transformed⟩) = _
  rw [max_run]
  show (do
    let sums ← tryLoop C (sumPass exp width entries src base HW i vmax)
      (set1 ((0 : Int) : F),canvas.dst)
    tryLoop C (dividePass width entries base HW i sums.1) ⟨sums.2,canvas.transformed⟩) = _
  rw [sum_run]
  exact divide_run

/-- The first places have their softmax in all rows, and each of their entries was recorded. -/
structure Softened (src : Memory F) (base C HW : Nat) (before : Canvas F) (columns : Nat)
    (canvas : Canvas F) : Prop where
  cells : ∀ c l, c < C → l < HW → canvas.dst (base + (c * HW + l)) =
    if l < columns then softAt exp src base C HW c l else before.dst (base + (c * HW + l))
  only : before.dst.OnlyIn canvas.dst base (C * HW)
  recorded : ∃ places, canvas.transformed = before.transformed ++ places ∧
    places.length = C * columns ∧
    ∀ c l, c < C → l < columns → base + (c * HW + l) ∈ places

private theorem softened_start (src : Memory F) (before : Canvas F) :
    Softened exp src base C HW before 0 before where
  cells _ l _ _ := (if_neg (Nat.not_lt_zero l)).symm
  only := OnlyIn.refl _ _ _
  recorded := ⟨[],(List.append_nil _).symm,rfl,fun _ l _ none => absurd none (Nat.not_lt_zero l)⟩

private theorem softmaxColumns_softened (some : 1 ≤ C) (room : base + C * HW ≤ entries)
    (fits : i + width ≤ HW) {before canvas : Canvas F}
    (softened : Softened exp src base C HW before i canvas) :
    ∃ after, softmaxColumns exp width entries src base C HW i canvas = .ok after ∧
      Softened exp src base C HW before (i + width) after := by
  obtain ⟨after,run,divided⟩ := softmaxColumns_eq exp src some room fits canvas
  refine ⟨after,run,?_,softened.only.trans divided.only,?_⟩
  · intro c l row place
    rw [divided.cells c l row place,if_pos row,softened.cells c l row place]
    by_cases earlier : l < i
    · rw [if_neg (by omega),if_pos earlier,if_pos (by omega)]
    · rw [if_neg earlier]
      apply if_congr _ rfl rfl
      omega
  · obtain ⟨places,recorded,length,covered⟩ := softened.recorded
    refine ⟨places ++ (List.range C).flatMap fun c => List.range' (base + (c * HW + i)) width,
      ?_,?_,?_⟩
    · rw [divided.recorded,recorded,List.append_assoc]
    · simp [List.length_flatMap,length,Nat.mul_add]
    · intro c l row low
      rw [List.mem_append]
      by_cases earlier : l < i
      · exact .inl (covered c l row earlier)
      · right
        refine List.mem_flatMap.mpr ⟨c,List.mem_range.mpr row,List.mem_range'_1.mpr ?_⟩
        omega

private theorem columns_softened (some : 1 ≤ C) (room : base + C * HW ≤ entries)
    {start passes : Nat} (fits : start + passes * width ≤ HW) {before canvas : Canvas F}
    (softened : Softened exp src base C HW before start canvas) :
    ∃ after, tryLoop passes (fun pass =>
        softmaxColumns exp width entries src base C HW (start + pass * width)) canvas = .ok after ∧
      Softened exp src base C HW before (start + passes * width) after := by
  apply tryLoop_induct fun pass => Softened exp src base C HW before (start + pass * width)
  · rwa [Nat.zero_mul,Nat.add_zero]
  · intro pass canvas low softened
    have block := Nat.mul_le_mul_right width (Nat.succ_le_of_lt low)
    rw [Nat.succ_mul] at block
    rw [Nat.succ_mul,← Nat.add_assoc]
    exact softmaxColumns_softened exp some room (by omega) softened

end Columns

section Generic

variable [FloatType F] (exp : F → F) (build : Build) {src : Memory F} {pointer C H W entries : Nat}

theorem vectorPasses_within (HW : Nat) : vectorPasses build HW * lanes build ≤ HW := by
  unfold vectorPasses
  split
  · omega
  · exact Nat.div_mul_le_self HW (lanes build)

/-- In every build the softmax of one image gives each element of its block its value, changes
nothing else and handles each element once. -/
theorem softmaxImage_eq (src : Memory F) {base HW : Nat} (some : 1 ≤ C) (room : base + C * HW ≤ entries)
    (before : Canvas F) :
    ∃ after, softmaxImage exp build entries src base C HW before = .ok after ∧
      (∀ c l, c < C → l < HW → after.dst (base + (c * HW + l)) = softAt exp src base C HW c l) ∧
      before.dst.OnlyIn after.dst base (C * HW) ∧
      ∃ places, after.transformed = before.transformed ++ places ∧ Tiles base (C * HW) places := by
  have within := vectorPasses_within build HW
  obtain ⟨middle,vector_run,vectors⟩ : ∃ middle, tryLoop (vectorPasses build HW) (fun pass =>
      softmaxColumns exp (lanes build) entries src base C HW (pass * lanes build)) before =
        .ok middle ∧
      Softened exp src base C HW before (vectorPasses build HW * lanes build) middle := by
    have blocks : 0 + vectorPasses build HW * lanes build ≤ HW := by omega
    have passed := columns_softened exp some room blocks (softened_start exp src before)
    simp only [Nat.zero_add] at passed
    exact passed
  obtain ⟨after,single_run,singles⟩ : ∃ after, tryLoop (HW - vectorPasses build HW * lanes build)
      (fun pass => softmaxColumns exp 1 entries src base C HW
        (vectorPasses build HW * lanes build + pass)) middle = .ok after ∧
      Softened exp src base C HW before HW after := by
    have rest : vectorPasses build HW * lanes build +
        (HW - vectorPasses build HW * lanes build) * 1 = HW := by omega
    have passed := columns_softened exp some room rest.le vectors
    rw [rest] at passed
    simp only [Nat.mul_one] at passed
    exact passed
  refine ⟨after,?_,?_,singles.only,?_⟩
  · unfold softmaxImage
    rw [vector_run]
    exact single_run
  · intro c l row place
    rw [singles.cells c l row place,if_pos place]
  · obtain ⟨places,recorded,length,covered⟩ := singles.recorded
    refine ⟨places,recorded,tiles_of_covers length ?_⟩
    intro address low high
    obtain ⟨q,rfl⟩ := Nat.exists_eq_add_of_le low
    have inside : q < C * HW := by omega
    have wide : 0 < HW := Nat.pos_of_lt_mul_left inside
    have member := covered (q / HW) (q % HW) (Nat.div_lt_of_lt_mul (by rwa [Nat.mul_comm]))
      (Nat.mod_lt q wide)
    rwa [Nat.div_add_mod'] at member

theorem softmaxGeneric_single (before : Canvas F) :
    softmaxGeneric exp build entries src pointer 1 C H W before =
      softmaxImage exp build entries src pointer C (H * W) before := by
  have base : pointer + 0 * C * H * W = pointer := by simp
  unfold softmaxGeneric tryLoop
  dsimp only
  rw [base]
  rfl

end Generic

end VideoAnalytics.Softmax
