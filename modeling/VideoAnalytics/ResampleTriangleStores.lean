import VideoAnalytics.ResampleTriangleKernel

/-! The rectangles of the output that the loops of Upsample4x_TriangleInterpolation store, block by
block. -/
namespace VideoAnalytics.Resample
open Loop Memory Rounding

variable {F : Type}

/-- A rectangle of the plane at a pointer is stored once, each pixel with its value. -/
structure Fills (ow outPtr : Nat) (value : Nat → Nat → F) (top rows left columns : Nat)
    (stores : List (Nat × F)) : Prop where
  length : stores.length = rows * columns
  mem : ∀ store, store ∈ stores ↔ ∃ r c, top ≤ r ∧ r < top + rows ∧ left ≤ c ∧ c < left + columns ∧
    store = (outPtr + (r * ow + c),value r c)

section Fills

variable {ow outPtr top rows more left columns : Nat} {value : Nat → Nat → F}
  {stores next : List (Nat × F)}

private theorem fills_columns : Fills ow outPtr value top rows left 0 [] := by
  refine ⟨rfl,?_⟩
  intro store
  simp only [List.not_mem_nil,false_iff]
  rintro ⟨r,c,_,_,low,high,_⟩
  omega

private theorem fills_rows : Fills ow outPtr value top 0 left columns [] := by
  refine ⟨(Nat.zero_mul columns).symm,?_⟩
  intro store
  simp only [List.not_mem_nil,false_iff]
  rintro ⟨r,c,low,high,_⟩
  omega

theorem Fills.beside (fills : Fills ow outPtr value top rows left columns stores)
    (further : Fills ow outPtr value top rows (left + columns) more next) :
    Fills ow outPtr value top rows left (columns + more) (stores ++ next) := by
  constructor
  · rw [List.length_append,fills.length,further.length,Nat.mul_add]
  · intro store
    rw [List.mem_append,fills.mem,further.mem]
    constructor
    · rintro (⟨r,c,top,bottom,low,high,rfl⟩ | ⟨r,c,top,bottom,low,high,rfl⟩)
      · exact ⟨r,c,top,bottom,low,by omega,rfl⟩
      · exact ⟨r,c,top,bottom,by omega,by omega,rfl⟩
    · rintro ⟨r,c,top,bottom,low,high,rfl⟩
      by_cases earlier : c < left + columns
      · exact .inl ⟨r,c,top,bottom,low,earlier,rfl⟩
      · exact .inr ⟨r,c,top,bottom,by omega,by omega,rfl⟩

theorem Fills.below (fills : Fills ow outPtr value top rows left columns stores)
    (further : Fills ow outPtr value (top + rows) more left columns next) :
    Fills ow outPtr value top (rows + more) left columns (stores ++ next) := by
  constructor
  · rw [List.length_append,fills.length,further.length,Nat.add_mul]
  · intro store
    rw [List.mem_append,fills.mem,further.mem]
    constructor
    · rintro (⟨r,c,first,last,low,high,rfl⟩ | ⟨r,c,first,last,low,high,rfl⟩)
      · exact ⟨r,c,first,by omega,low,high,rfl⟩
      · exact ⟨r,c,by omega,by omega,low,high,rfl⟩
    · rintro ⟨r,c,first,last,low,high,rfl⟩
      by_cases earlier : r < top + rows
      · exact .inl ⟨r,c,first,earlier,low,high,rfl⟩
      · exact .inr ⟨r,c,by omega,by omega,low,high,rfl⟩

theorem fills_blocks {passes width : Nat} {block : Nat → List (Nat × F)}
    (fills : ∀ pass, pass < passes →
      Fills ow outPtr value top rows (left + pass * width) width (block pass)) :
    Fills ow outPtr value top rows left (passes * width) ((List.range passes).flatMap block) := by
  induction passes with
  | zero =>
    rw [Nat.zero_mul]
    exact fills_columns
  | succ passes ih =>
    rw [List.range_succ,List.flatMap_append,List.flatMap_singleton,Nat.succ_mul]
    exact (ih fun pass low => fills pass (by omega)).beside (fills passes (Nat.lt_succ_self passes))

theorem fills_bands {passes height : Nat} {band : Nat → List (Nat × F)}
    (fills : ∀ pass, pass < passes →
      Fills ow outPtr value (top + pass * height) height left columns (band pass)) :
    Fills ow outPtr value top (passes * height) left columns ((List.range passes).flatMap band) := by
  induction passes with
  | zero =>
    rw [Nat.zero_mul]
    exact fills_rows
  | succ passes ih =>
    rw [List.range_succ,List.flatMap_append,List.flatMap_singleton,Nat.succ_mul]
    exact (ih fun pass low => fills pass (by omega)).below (fills passes (Nat.lt_succ_self passes))

/-- A whole plane is stored once. -/
theorem Fills.tiles {oh : Nat} (fills : Fills ow outPtr value 0 oh 0 ow stores) :
    Tiles outPtr (oh * ow) (stores.map Prod.fst) := by
  apply tiles_of_covers
  · rw [List.length_map,fills.length]
  · intro address low high
    obtain ⟨n,rfl⟩ := Nat.exists_eq_add_of_le low
    have inside : n < oh * ow := by omega
    have wide : 0 < ow := Nat.pos_of_lt_mul_left inside
    refine List.mem_map.mpr ⟨(outPtr + n,value (n / ow) (n % ow)),(fills.mem _).mpr
      ⟨n / ow,n % ow,Nat.zero_le _,?_,Nat.zero_le _,?_,?_⟩,rfl⟩
    · rw [Nat.zero_add]
      exact Nat.div_lt_of_lt_mul (inside.trans_eq (Nat.mul_comm oh ow))
    · rw [Nat.zero_add]
      exact Nat.mod_lt _ wide
    · rw [Nat.div_add_mod']

end Fills

section Code

variable [Field F] [LinearOrder F] [IsStrictOrderedRing F] [FloorRing F]

/-- The last column of a first block of columns, whose neighbour on the right is not masked. -/
def alone : Simd → Nat
  | .sse => 0
  | .avx2 => 1

/-- What the code stores for a pixel. -/
def codePixel (simd : Simd) (element : Int → F) (iw ih r c : Nat) : F :=
  let i : Fin 4 := ⟨r % 4,Nat.mod_lt r (Nat.succ_pos 3)⟩
  let lane : Fin 4 := ⟨c % 4,Nat.mod_lt c (Nat.succ_pos 3)⟩
  mixed (besideWeight (r / 4 = 0) (r / 4 + 1 = ih) i)
    (besideWeight (c / 4 = 0) (c / 4 + 1 = iw ∧ alone simd < c / 4) lane)
    (fun y x => element (((r / 4 : Nat) + y) * iw + (c / 4 : Nat) + x)) i lane

omit [LinearOrder F] [IsStrictOrderedRing F] [FloorRing F] in
theorem codePixel_quarter (simd : Simd) (element : Int → F) (iw ih y x : Nat) (i lane : Fin 4) :
    codePixel simd element iw ih (4 * y + i) (4 * x + lane) =
      mixed (besideWeight (y = 0) (y + 1 = ih) i)
        (besideWeight (x = 0) (x + 1 = iw ∧ alone simd < x) lane)
        (fun dy dx => element ((y + dy) * iw + x + dx)) i lane := by
  have rest : ∀ (n : Nat) (quarter : Fin 4), (4 * n + quarter) / 4 = n ∧
      (⟨(4 * n + quarter) % 4,Nat.mod_lt _ (Nat.succ_pos 3)⟩ : Fin 4) = quarter := by
    intro n quarter
    constructor
    · omega
    · ext
      dsimp only
      omega
  unfold codePixel
  dsimp only
  rw [(rest y i).1,(rest y i).2,(rest x lane).1,(rest x lane).2]

variable {simd : Simd} {element : Int → F} {iw ih outPtr y : Nat} {rows : Rows}

/-- The piece of code is the one for these four rows. -/
structure Placed (ih y : Nat) (rows : Rows) : Prop where
  first : rows = .first ↔ y = 0
  last : rows = .last ↔ y + 1 = ih

theorem sampled_row (n : Nat) :
    (FloatMath.round (samplePosition (1 / 4 : F) (1 / 4) (4 * n))).toNat = n := by
  have rounded : FloatMath.round (samplePosition (1 / 4 : F) (1 / 4) (4 * n)) = n :=
    round_quarter n (show 0 < 4 by decide)
  rw [rounded,Int.toNat_natCast]

theorem sseBlock_fills (placed : Placed ih y rows) {x : Nat}
    (behind : x + 1 = iw → (0 < x ↔ alone simd < x)) :
    Fills (4 * iw) outPtr (codePixel simd element iw ih) (4 * y) 4 (4 * x) 4
      (sseBlock rows element iw (4 * iw) (1 / 4) (1 / 4) y outPtr (4 * y) (4 * x)) := by
  have value : ∀ i lane : Fin 4, resultSse rows (4 * iw) (4 * x)
      (fun dy dx => element ((y + dy) * iw + x + dx)) i lane =
        codePixel simd element iw ih (4 * y + i) (4 * x + lane) := by
    intro i lane
    have vertical := congrFun (besideWeight_congr (F := F) placed.first placed.last) i
    have horizontal := congrFun (besideWeight_congr (F := F) (show 4 * x = 0 ↔ x = 0 by omega)
      (show 4 * x ≠ 0 ∧ ((4 * x : Nat) : Int) = (4 * iw : Nat) - 4 ↔ x + 1 = iw ∧ alone simd < x by
        constructor
        · rintro ⟨later,last⟩
          have edge : x + 1 = iw := by omega
          exact ⟨edge,(behind edge).mp (by omega)⟩
        · rintro ⟨edge,after⟩
          have later := (behind edge).mpr after
          omega)) lane
    rw [resultSse_eq,codePixel_quarter,vertical,horizontal]
  constructor
  · simp [sseBlock,List.length_flatMap]
  · intro store
    unfold sseBlock
    dsimp only
    rw [sampled_row]
    simp only [List.mem_flatMap,List.mem_map,List.mem_finRange,true_and,value]
    constructor
    · rintro ⟨i,lane,rfl⟩
      exact ⟨4 * y + i,4 * x + lane,by omega,by omega,by omega,by omega,rfl⟩
    · rintro ⟨r,c,top,bottom,low,high,rfl⟩
      refine ⟨⟨r - 4 * y,by omega⟩,⟨c - 4 * x,by omega⟩,?_⟩
      dsimp only
      rw [Nat.add_sub_cancel' top,Nat.add_sub_cancel' low]

theorem avx2Block_fills (placed : Placed ih y rows) {k : Nat} (column : 2 * k + 1 < iw) :
    Fills (4 * iw) outPtr (codePixel .avx2 element iw ih) (4 * y) 4 (8 * k) 8
      (avx2Block rows element iw (4 * iw) (1 / 4) (1 / 4) y outPtr (4 * y) (8 * k)) := by
  have sampled : (FloatMath.round (samplePosition (1 / 4 : F) (1 / 4) (8 * k))).toNat = 2 * k := by
    have rounded := sampled_row (F := F) (2 * k)
    rwa [← Nat.mul_assoc] at rounded
  have value : ∀ (i : Fin 4) (half : Fin 2) (lane : Fin 4), resultAvx2 rows (4 * iw) (8 * k)
      (fun dy dx => element ((y + dy) * iw + (2 * k : Nat) + dx)) i half lane =
        codePixel .avx2 element iw ih (4 * y + i) (8 * k + (4 * half + lane)) := by
    intro i half lane
    have vertical := congrFun (besideWeight_congr (F := F) placed.first placed.last) i
    have horizontal := congrFun (besideWeight_congr (F := F)
      (show 8 * k = 0 ∧ half = 0 ↔ 2 * k + half = 0 by omega)
      (show (8 * k ≠ 0 ∧ ((8 * k : Nat) : Int) = (4 * iw : Nat) - 8) ∧ half = 1 ↔
        2 * k + half + 1 = iw ∧ 1 < 2 * k + half by omega)) lane
    have place : 8 * k + (4 * half + lane) = 4 * (2 * k + half) + (lane : Nat) := by omega
    rw [resultAvx2_eq,place,codePixel_quarter,vertical,horizontal]
    congr 1
    ext1 dy
    ext1 dx
    congr 1
    push_cast
    ring
  constructor
  · simp [avx2Block,List.length_flatMap]
  · intro store
    unfold avx2Block
    dsimp only
    rw [sampled]
    simp only [List.mem_flatMap,List.mem_map,List.mem_finRange,true_and,value]
    constructor
    · rintro ⟨i,half,lane,rfl⟩
      exact ⟨4 * y + i,8 * k + (4 * half + lane),by omega,by omega,by omega,by omega,rfl⟩
    · rintro ⟨r,c,top,bottom,low,high,rfl⟩
      refine ⟨⟨r - 4 * y,by omega⟩,⟨(c - 8 * k) / 4,by omega⟩,⟨(c - 8 * k) % 4,by omega⟩,?_⟩
      dsimp only
      rw [Nat.add_sub_cancel' top,Nat.div_add_mod,Nat.add_sub_cancel' low]

end Code

end VideoAnalytics.Resample
