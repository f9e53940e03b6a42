import VideoAnalytics.ResampleTriangleStores

/-! When Upsample4x_TriangleInterpolation leaves what InterpolationKernel leaves: not for planes
of one row, and not for planes whose columns all lie in the first block. -/
namespace VideoAnalytics.Resample
open Loop Memory Rounding

variable {F : Type} [Field F] [LinearOrder F] [IsStrictOrderedRing F] [FloorRing F]

section Channel

variable {simd : Simd} {element : Int → F} {iw ih outPtr fuel : Nat}

private theorem upTo_ends {size block position : Nat} (fits : block ≤ size)
    (past : size < position + block) : upTo size block position = false := by
  rw [Bool.eq_false_iff,ne_eq,upTo_iff fits]
  omega

private theorem rows_sse {rows : Rows} {y : Nat} (placed : Placed ih y rows) (wide : 1 ≤ iw)
    (enough : iw < fuel) :
    ∃ own, (∀ stores, triangleRows .sse fuel rows element iw (4 * iw) (1 / 4) (1 / 4) outPtr (4 * y)
        stores = .ok (stores ++ own)) ∧
      Fills (4 * iw) outPtr (codePixel .sse element iw ih) (4 * y) 4 0 (4 * iw) own := by
  refine ⟨(List.range iw).flatMap fun x =>
    sseBlock rows element iw (4 * iw) (1 / 4) (1 / 4) y outPtr (4 * y) (0 + x * 4),?_,?_⟩
  · intro stores
    unfold triangleRows
    dsimp only
    rw [sampled_row]
    show (do
      let all ← stepLoop Unfinished.outOfFuel (upTo (4 * iw) 4) 4 (fun ox stores =>
        .ok (stores ++ sseBlock rows element iw (4 * iw) (1 / 4) (1 / 4) y outPtr (4 * y) ox)) fuel 0
          stores
      return all.2) = _
    rw [stepLoop_appends enough]
    · rfl
    · intro pass low
      rw [upTo_iff (by omega)]
      omega
    · exact upTo_ends (by omega) (by omega)
    · intro pass low done
      rfl
  · rw [Nat.mul_comm 4 iw]
    apply fills_blocks
    intro x column
    rw [Nat.zero_add,Nat.mul_comm x,Nat.mul_comm iw]
    exact sseBlock_fills placed fun _ => Iff.rfl

private theorem rows_avx2 {rows : Rows} {y : Nat} (placed : Placed ih y rows) (wide : 2 ≤ iw)
    (enough : iw < fuel) :
    ∃ own, (∀ stores, triangleRows .avx2 fuel rows element iw (4 * iw) (1 / 4) (1 / 4) outPtr (4 * y)
        stores = .ok (stores ++ own)) ∧
      Fills (4 * iw) outPtr (codePixel .avx2 element iw ih) (4 * y) 4 0 (4 * iw) own := by
  let pairs := (List.range (iw / 2)).flatMap fun k =>
    avx2Block rows element iw (4 * iw) (1 / 4) (1 / 4) y outPtr (4 * y) (0 + k * 8)
  let single := (List.range (iw % 2)).flatMap fun k =>
    sseBlock rows element iw (4 * iw) (1 / 4) (1 / 4) y outPtr (4 * y) (0 + iw / 2 * 8 + k * 4)
  have first : ∀ stores, stepLoop Unfinished.outOfFuel (upTo (4 * iw) 8) 8 (fun ox stores =>
      .ok (stores ++ avx2Block rows element iw (4 * iw) (1 / 4) (1 / 4) y outPtr (4 * y) ox)) fuel 0
        stores = .ok (0 + iw / 2 * 8,stores ++ pairs) := by
    apply stepLoop_appends (by omega)
    · intro pass low
      rw [upTo_iff (by omega)]
      omega
    · exact upTo_ends (by omega) (by omega)
    · intro pass low done
      rfl
  have second : ∀ stores, stepLoop Unfinished.outOfFuel (upTo (4 * iw) 4) 4 (fun ox stores =>
      .ok (stores ++ sseBlock rows element iw (4 * iw) (1 / 4) (1 / 4) y outPtr (4 * y) ox)) fuel
        (0 + iw / 2 * 8) stores = .ok (0 + iw / 2 * 8 + iw % 2 * 4,stores ++ single) := by
    apply stepLoop_appends (by omega)
    · intro pass low
      rw [upTo_iff (by omega)]
      omega
    · exact upTo_ends (by omega) (by omega)
    · intro pass low done
      rfl
  refine ⟨pairs ++ single,?_,?_⟩
  · intro stores
    unfold triangleRows
    dsimp only
    rw [sampled_row,first]
    show (do
      let all ← stepLoop Unfinished.outOfFuel (upTo (4 * iw) 4) 4 (fun ox stores =>
        .ok (stores ++ sseBlock rows element iw (4 * iw) (1 / 4) (1 / 4) y outPtr (4 * y) ox)) fuel
          (0 + iw / 2 * 8) (stores ++ pairs)
      return all.2) = _
    rw [second,← List.append_assoc]
    rfl
  · have whole : 4 * iw = iw / 2 * 8 + iw % 2 * 4 := by omega
    rw [whole]
    apply Fills.beside
    · apply fills_blocks
      intro k column
      rw [← whole,Nat.zero_add,Nat.mul_comm k]
      exact avx2Block_fills placed (by omega)
    · apply fills_blocks
      intro k column
      have place : 0 + iw / 2 * 8 + k * 4 = 4 * (2 * (iw / 2) + k) := by omega
      rw [← whole,place]
      apply sseBlock_fills placed
      intro edge
      show 0 < 2 * (iw / 2) + k ↔ 1 < 2 * (iw / 2) + k
      omega

/-- With how many columns a build returns. -/
def leastReturning : Simd → Nat
  | .sse => 1
  | .avx2 => 2

private theorem rows_fill (simd : Simd) (element : Int → F) (outPtr : Nat) {rows : Rows} {y : Nat}
    (placed : Placed ih y rows) (wide : leastReturning simd ≤ iw) (enough : iw < fuel) :
    ∃ own, (∀ stores, triangleRows simd fuel rows element iw (4 * iw) (1 / 4) (1 / 4) outPtr (4 * y)
        stores = .ok (stores ++ own)) ∧
      Fills (4 * iw) outPtr (codePixel simd element iw ih) (4 * y) 4 0 (4 * iw) own := by
  cases simd with
  | sse => exact rows_sse placed wide enough
  | avx2 => exact rows_avx2 placed wide enough

/-- A plane of at least two rows is stored once. -/
theorem channel_fills (simd : Simd) (element : Int → F) (outPtr : Nat)
    (wide : leastReturning simd ≤ iw) (high : 2 ≤ ih) (enough : iw < fuel) (more : ih < fuel) :
    ∃ own, (∀ stores, triangleChannel simd fuel element iw (1 / 4) (1 / 4) (4 * iw) (4 * ih) outPtr
        stores = .ok (stores ++ own)) ∧
      Fills (4 * iw) outPtr (codePixel simd element iw ih) 0 (4 * ih) 0 (4 * iw) own := by
  have above : Placed ih 0 .first := ⟨by simp,by simp; omega⟩
  have between : ∀ pass, pass < ih - 2 → Placed ih (1 + pass) .middle := by
    intro pass low
    exact ⟨by simp,by simp; omega⟩
  have below : Placed ih (ih - 1) .last := ⟨by simp; omega,by simp; omega⟩
  obtain ⟨top,first_run,first⟩ := rows_fill simd element outPtr above wide enough
  obtain ⟨bottom,last_run,last⟩ := rows_fill simd element outPtr below wide enough
  have bands : ∀ pass, ∃ own, pass < ih - 2 → (∀ stores, triangleRows simd fuel .middle element iw
      (4 * iw) (1 / 4) (1 / 4) outPtr (4 * (1 + pass)) stores = .ok (stores ++ own)) ∧
        Fills (4 * iw) outPtr (codePixel simd element iw ih) (4 * (1 + pass)) 4 0 (4 * iw) own := by
    intro pass
    by_cases low : pass < ih - 2
    · obtain ⟨own,fills⟩ := rows_fill simd element outPtr (between pass low) wide enough
      exact ⟨own,fun _ => fills⟩
    · exact ⟨[],fun low' => absurd low' low⟩
  choose band middle using bands
  have position : ∀ pass, 4 + pass * 4 = 4 * (1 + pass) := by omega
  have middle_run : ∀ stores, stepLoop .outOfFuel (upTo (4 * ih) 8) 4
      (triangleRows simd fuel .middle element iw (4 * iw) (1 / 4) (1 / 4) outPtr) fuel 4 stores =
        .ok (4 + (ih - 2) * 4,stores ++ (List.range (ih - 2)).flatMap band) := by
    apply stepLoop_appends (by omega)
    · intro pass low
      rw [upTo_iff (by omega)]
      omega
    · exact upTo_ends (by omega) (by omega)
    · intro pass low done
      rw [position]
      exact (middle pass low).1 done
  refine ⟨top ++ (List.range (ih - 2)).flatMap band ++ bottom,?_,?_⟩
  · intro stores
    have start : 4 * ih - 4 = 4 * (ih - 1) := by omega
    unfold triangleChannel
    rw [first_run stores]
    show (do
      let middle ← stepLoop Unfinished.outOfFuel (upTo (4 * ih) 8) 4
        (triangleRows simd fuel .middle element iw (4 * iw) (1 / 4) (1 / 4) outPtr) fuel 4
          (stores ++ top)
      triangleRows simd fuel .last element iw (4 * iw) (1 / 4) (1 / 4) outPtr (4 * ih - 4) middle.2) = _
    rw [middle_run,start,← List.append_assoc,← List.append_assoc]
    exact last_run _
  · have whole : 4 * ih = 4 + (ih - 2) * 4 + 4 := by omega
    rw [whole]
    apply Fills.below
    · apply first.below
      apply fills_bands
      intro pass low
      have start : 4 * 0 + 4 + pass * 4 = 4 * (1 + pass) := by omega
      rw [start]
      exact (middle pass low).2
    · have start : 0 + (4 + (ih - 2) * 4) = 4 * (ih - 1) := by omega
      rw [start]
      exact last

omit [IsStrictOrderedRing F] in
/-- With fewer columns than a block the bound of the loop over blocks wraps. -/
theorem rows_endless (element : Int → F) (outPtr oy : Nat) {rows : Rows} {fx fy : F}
    (narrow : iw < leastReturning simd) (stores after : List (Nat × F)) :
    triangleRows simd fuel rows element iw (4 * iw) fx fy outPtr oy stores ≠ .ok after := by
  intro returned
  unfold triangleRows at returned
  cases simd with
  | sse =>
    change iw < 1 at narrow
    obtain ⟨wide,-,rest⟩ := bind_passed returned
    obtain ⟨all,run,-⟩ := bind_passed rest
    exact stepLoop_endless (fun _ => upTo_wraps (by omega)) _ _ _ _ run
  | avx2 =>
    change iw < 2 at narrow
    obtain ⟨wide,run,-⟩ := bind_passed returned
    exact stepLoop_endless (fun _ => upTo_wraps (by omega)) _ _ _ _ run

omit [IsStrictOrderedRing F] in
private theorem channel_endless (element : Int → F) (outPtr : Nat) {fx fy : F}
    (small : iw < leastReturning simd ∨ ih < 2) (stores after : List (Nat × F)) :
    triangleChannel simd fuel element iw fx fy (4 * iw) (4 * ih) outPtr stores ≠ .ok after := by
  intro returned
  unfold triangleChannel at returned
  obtain ⟨first,run,rest⟩ := bind_passed returned
  rcases small with narrow | flat
  · exact rows_endless element outPtr 0 narrow stores first run
  · obtain ⟨middle,run,-⟩ := bind_passed rest
    exact stepLoop_endless (fun _ => upTo_wraps (by omega)) _ _ _ _ run

end Channel

section Whole

variable (simd : Simd) (src : Memory F) (outside : Nat → Int → F) {iw ih : Nat}
  (channels batch : Nat) {fuel : Nat}

/-- What the code stores for a pixel, as a kernel. -/
def codeKernel (simd : Simd) (src : Memory F) (outside : Nat → Int → F) (iw ih inPtr oy ox : Nat) :
    F × List Nat := (codePixel simd (fetch src outside iw ih inPtr) iw ih oy ox,[])

omit [IsStrictOrderedRing F] in
private theorem Upsample4x_planes (ow oh : Nat) (fx fy : F) :
    Upsample4x_TriangleInterpolation simd fuel src outside iw ih fx fy ow oh channels batch =
      tryLoop batch (fun b => tryLoop channels fun c =>
        triangleChannel simd fuel (fetch src outside iw ih (plane iw ih channels b c)) iw fx fy ow oh
          (plane ow oh channels b c)) [] := by
  have pointer : ∀ w h b c, b * channels * w * h + c * w * h = plane w h channels b c := by
    intro w h b c
    unfold plane
    ring
  unfold Upsample4x_TriangleInterpolation
  simp only [pointer]

/-- The stores of a whole run, those of each channel in its plane. -/
theorem Upsample4x_draws (wide : leastReturning simd ≤ iw) (high : 2 ≤ ih) (enough : iw < fuel)
    (more : ih < fuel) :
    ∃ own : Nat → Nat → List (Nat × F),
      Upsample4x_TriangleInterpolation simd fuel src outside iw ih (1 / 4) (1 / 4) (4 * iw) (4 * ih)
          channels batch =
        .ok ((List.range batch).flatMap fun b => (List.range channels).flatMap (own b)) ∧
      (∀ b c, triangleChannel simd fuel (fetch src outside iw ih (plane iw ih channels b c)) iw (1 / 4)
        (1 / 4) (4 * iw) (4 * ih) (plane (4 * iw) (4 * ih) channels b c) [] = .ok (own b c) ∧
        Tiles (plane (4 * iw) (4 * ih) channels b c) (4 * ih * (4 * iw)) ((own b c).map Prod.fst)) ∧
      Draws iw ih (4 * iw) (4 * ih) channels batch (codeKernel simd src outside iw ih)
        ((List.range batch).flatMap fun b => (List.range channels).flatMap (own b)) := by
  have fills := fun b c => channel_fills simd (fetch src outside iw ih (plane iw ih channels b c))
    (plane (4 * iw) (4 * ih) channels b c) wide high enough more
  choose own run fills using fills
  refine ⟨own,?_,?_,?_⟩
  · rw [Upsample4x_planes]
    refine (tryLoop_appends ?_ []).trans (by rw [List.nil_append])
    intro b _ done
    apply tryLoop_appends
    intro c _ done
    exact run b c done
  · intro b c
    exact ⟨run b c [],(fills b c).tiles⟩
  · constructor
    · simp [List.length_flatMap,(fills _ _).length]
    · intro b c oy ox image channel row column
      refine ⟨codePixel simd (fetch src outside iw ih (plane iw ih channels b c)) iw ih oy ox,?_⟩
      rw [List.mem_flatMap]
      refine ⟨b,List.mem_range.mpr image,List.mem_flatMap.mpr ⟨c,List.mem_range.mpr channel,?_⟩⟩
      rw [(fills b c).mem]
      exact ⟨oy,ox,Nat.zero_le _,by omega,Nat.zero_le _,by omega,rfl⟩
    · intro store member
      obtain ⟨b,image,member⟩ := List.mem_flatMap.mp member
      obtain ⟨c,channel,member⟩ := List.mem_flatMap.mp member
      obtain ⟨oy,ox,-,row,-,column,rfl⟩ := ((fills b c).mem store).mp member
      exact ⟨b,c,oy,ox,List.mem_range.mp image,List.mem_range.mp channel,by omega,by omega,rfl⟩

end Whole

section Pixels

variable {simd : Simd} {src : Memory F} {outside : Nat → Int → F} {iw ih inPtr : Nat}

/-- With how many columns a build agrees with the kernel. -/
def leastAgreeing : Simd → Nat
  | .sse => 2
  | .avx2 => 3

omit [Field F] [LinearOrder F] [IsStrictOrderedRing F] [FloorRing F] in
private theorem fetch_inside {y x : Int} (row : 0 ≤ y ∧ y < ih) (column : 0 ≤ x ∧ x < iw) :
    fetch src outside iw ih inPtr (y * iw + x) = src (inPtr + (y.toNat * iw + x.toNat)) := by
  obtain ⟨y,rfl⟩ := Int.eq_ofNat_of_zero_le row.1
  obtain ⟨x,rfl⟩ := Int.eq_ofNat_of_zero_le column.1
  have inside : y * iw + x < ih * iw := cell_within (by omega) (by omega)
  have offset : ((y : Int) * iw + x) = ((y * iw + x : Nat) : Int) := by push_cast; rfl
  unfold fetch
  rw [offset,if_pos ⟨Int.natCast_nonneg _,by exact_mod_cast inside⟩]
  rfl

omit [LinearOrder F] [IsStrictOrderedRing F] [FloorRing F] in
/-- A neighbour that is not masked lies inside. -/
theorem besideWeight_inside {size n : Nat} (low : n < size) (quarter : Fin 4) :
    (besideWeight (n = 0) (n + 1 = size) quarter : F) = 0 ∨
      0 ≤ (n : Int) + near quarter ∧ (n : Int) + near quarter < size := by
  unfold besideWeight near
  by_cases first : quarter.val < 2
  · by_cases edge : n = 0
    · exact .inl (if_pos (.inl ⟨edge,first⟩))
    · rw [if_pos first]
      omega
  · by_cases edge : n + 1 = size
    · exact .inl (if_pos (.inr ⟨edge,first⟩))
    · rw [if_neg first]
      omega

private theorem codePixel_kernel (wide : leastAgreeing simd ≤ iw) {oy ox : Nat} (row : oy < 4 * ih)
    (column : ox < 4 * iw) :
    codePixel simd (fetch src outside iw ih inPtr) iw ih oy ox =
      (interpolatedPixel src iw ih (1 / 4 : F) (1 / 4) 2 false inPtr oy ox).1 := by
  obtain ⟨y,i,rfl⟩ : ∃ y, ∃ i : Fin 4, oy = 4 * y + i :=
    ⟨oy / 4,⟨oy % 4,Nat.mod_lt _ (by decide)⟩,(Nat.div_add_mod oy 4).symm⟩
  obtain ⟨x,lane,rfl⟩ : ∃ x, ∃ lane : Fin 4, ox = 4 * x + lane :=
    ⟨ox / 4,⟨ox % 4,Nat.mod_lt _ (by decide)⟩,(Nat.div_add_mod ox 4).symm⟩
  have down : y < ih := by omega
  have across : x < iw := by omega
  have edge : x + 1 = iw ∧ alone simd < x ↔ x + 1 = iw := by
    cases simd with
    | sse =>
      change 2 ≤ iw at wide
      exact and_iff_left_of_imp fun last => show 0 < x by omega
    | avx2 =>
      change 3 ≤ iw at wide
      exact and_iff_left_of_imp fun last => show 1 < x by omega
  have horizontal := congrFun (besideWeight_congr (F := F) (Iff.refl (x = 0)) edge) lane
  have center_row : 0 ≤ (y : Int) + 0 ∧ (y : Int) + 0 < ih := by omega
  have center_column : 0 ≤ (x : Int) + 0 ∧ (x : Int) + 0 < iw := by omega
  rw [codePixel_quarter,interpolatedPixel_quarter src inPtr down across,horizontal]
  simp only [add_assoc]
  apply mixed_congr
  · rcases besideWeight_inside (F := F) down i with masked | above
    · rw [masked,zero_mul,zero_mul,zero_mul]
    · rcases besideWeight_inside (F := F) across lane with masked | beside
      · rw [masked,mul_zero,zero_mul,zero_mul]
      · rw [fetch_inside above beside]
  · rcases besideWeight_inside (F := F) down i with masked | above
    · rw [masked,zero_mul,zero_mul]
    · rw [fetch_inside above center_column]
  · rcases besideWeight_inside (F := F) across lane with masked | beside
    · rw [masked,zero_mul,zero_mul]
    · rw [fetch_inside center_row beside]
  · rw [fetch_inside center_row center_column]

omit [IsStrictOrderedRing F] in
/-- Where all columns lie in the first block, the last pixel mixes in what lies outside. -/
theorem codePixel_corner (src : Memory F) (outside : Nat → Int → F) (inPtr : Nat)
    (narrow : iw = alone simd + 1) (high : 2 ≤ ih) :
    codePixel simd (fetch src outside iw ih inPtr) iw ih (4 * (ih - 1) + 3) (4 * (iw - 1) + 3) =
      5 / 8 * src (inPtr + ((ih - 1) * iw + (iw - 1))) + 3 / 8 * outside inPtr (ih * iw : Nat) := by
  have center : fetch src outside iw ih inPtr (((ih - 1 : Nat) + 0) * iw + (iw - 1 : Nat) + 0) =
      src (inPtr + ((ih - 1) * iw + (iw - 1))) := by
    rw [add_zero,add_zero]
    exact fetch_inside (by omega) (by omega)
  have beyond : fetch src outside iw ih inPtr (((ih - 1 : Nat) + 0) * iw + (iw - 1 : Nat) + 1) =
      outside inPtr (ih * iw : Nat) := by
    have offset : (((ih - 1 : Nat) : Int) + 0) * iw + (iw - 1 : Nat) + 1 = (ih * iw : Nat) := by
      have rows : (ih - 1) * iw + iw = ih * iw := by
        rw [← Nat.succ_mul,Nat.succ_eq_add_one,Nat.sub_add_cancel (by omega)]
      rw [← rows,add_zero]
      push_cast
      omega
    rw [offset]
    exact if_neg (by omega)
  have weights := codePixel_quarter simd (fetch src outside iw ih inPtr) iw ih (ih - 1) (iw - 1) 3 3
  have vertical : (besideWeight (ih - 1 = 0) (ih - 1 + 1 = ih) 3 : F) = 0 :=
    if_pos (.inr ⟨by omega,by decide⟩)
  have horizontal : (besideWeight (iw - 1 = 0) (iw - 1 + 1 = iw ∧ alone simd < iw - 1) 3 : F) =
      3 / 8 := if_neg (by omega)
  rw [vertical,horizontal] at weights
  refine weights.trans ?_
  have right : near 3 = 1 := rfl
  unfold mixed
  dsimp only
  rw [right,center,beyond]
  norm_num [hereWeight]
  ring

private theorem kernel_corner (src : Memory F) (inPtr : Nat) (wide : 1 ≤ iw) (high : 1 ≤ ih) :
    (interpolatedPixel src iw ih (1 / 4 : F) (1 / 4) 2 false inPtr (4 * (ih - 1) + 3)
      (4 * (iw - 1) + 3)).1 = src (inPtr + ((ih - 1) * iw + (iw - 1))) := by
  have mean := interpolatedPixel_quarter src inPtr (show ih - 1 < ih by omega)
    (show iw - 1 < iw by omega) 3 3
  have vertical : (besideWeight (ih - 1 = 0) (ih - 1 + 1 = ih) 3 : F) = 0 :=
    if_pos (.inr ⟨by omega,by decide⟩)
  have horizontal : (besideWeight (iw - 1 = 0) (iw - 1 + 1 = iw) 3 : F) = 0 :=
    if_pos (.inr ⟨by omega,by decide⟩)
  have center := mul_pos (hereWeight_pos (F := F) 3) (hereWeight_pos (F := F) 3)
  rw [vertical,horizontal] at mean
  refine mean.trans ?_
  unfold mixed
  simp only [zero_mul,mul_zero,zero_add,add_zero,Int.toNat_natCast]
  exact mul_div_cancel_left₀ _ center.ne'

end Pixels

section Agrees

variable {iw ih channels batch : Nat} {src : Memory F}

/-- The channels store each element of their planes once and none outside, and together leave
what InterpolationKernel leaves. -/
structure TriangleMatches (simd : Simd) (fuel : Nat) (src : Memory F) (outside : Nat → Int → F)
    (iw ih channels batch : Nat) (stores : List (Nat × F)) : Prop where
  planes : ∃ own : Nat → Nat → List (Nat × F),
    stores = ((List.range batch).flatMap fun b => (List.range channels).flatMap (own b)) ∧
    ∀ b c, b < batch → c < channels →
      triangleChannel simd fuel (fetch src outside iw ih (plane iw ih channels b c)) iw (1 / 4)
        (1 / 4) (4 * iw) (4 * ih) (plane (4 * iw) (4 * ih) channels b c) [] = .ok (own b c) ∧
      Tiles (plane (4 * iw) (4 * ih) channels b c) (4 * ih * (4 * iw)) ((own b c).map Prod.fst)
  output : ∀ canvas, canvas.dst.writeAll stores = (InterpolationKernel src iw ih (1 / 4) (1 / 4)
    (4 * iw) (4 * ih) channels batch 2 false canvas).dst

/-- With enough fuel a run returns, and whatever lies outside of the planes it matches the kernel. -/
def TriangleAgrees (simd : Simd) (src : Memory F) (iw ih channels batch : Nat) : Prop :=
  ∀ outside, ∃ enough, ∀ fuel, enough ≤ fuel → ∃ stores,
    Upsample4x_TriangleInterpolation simd fuel src outside iw ih (1 / 4) (1 / 4) (4 * iw) (4 * ih)
        channels batch = .ok stores ∧
      TriangleMatches simd fuel src outside iw ih channels batch stores

private theorem leastReturning_le {simd : Simd} (wide : leastAgreeing simd ≤ iw) :
    leastReturning simd ≤ iw := by
  cases simd with
  | sse =>
    change 2 ≤ iw at wide
    exact show 1 ≤ iw by omega
  | avx2 =>
    change 3 ≤ iw at wide
    exact show 2 ≤ iw by omega

private theorem triangle_agrees {simd : Simd} (wide : leastAgreeing simd ≤ iw) (high : 2 ≤ ih) :
    TriangleAgrees simd src iw ih channels batch := by
  intro outside
  refine ⟨iw + ih + 1,?_⟩
  intro fuel enough
  obtain ⟨own,run,planes,draws⟩ := Upsample4x_draws simd src outside channels batch
    (leastReturning_le wide) high (show iw < fuel by omega) (show ih < fuel by omega)
  refine ⟨_,run,⟨own,rfl,fun b c _ _ => planes b c⟩,?_⟩
  have kernel : Draws iw ih (4 * iw) (4 * ih) channels batch
      (interpolatedPixel src iw ih (1 / 4) (1 / 4) 2 false) _ :=
    draws.congr fun inPtr oy ox row column => codePixel_kernel wide row column
  exact kernel.output

omit [IsStrictOrderedRing F] in
/-- Without pixels there is nothing to differ. -/
theorem triangle_agrees_empty (simd : Simd) (none : batch = 0 ∨ channels = 0) :
    TriangleAgrees simd src iw ih channels batch := by
  intro outside
  refine ⟨0,?_⟩
  intro fuel _
  refine ⟨[],?_,⟨fun _ _ => [],by simp,?_⟩,?_⟩
  · rw [Upsample4x_planes]
    refine (@tryLoop_appends _ _ batch _ (fun _ => []) ?_ []).trans (by simp)
    intro b low done
    rcases none with rfl | rfl
    · omega
    · exact congrArg Except.ok (List.append_nil done).symm
  · intro b c image channel
    omega
  · intro canvas
    have count : batch * (channels * (4 * ih * (4 * iw))) = 0 := by
      rcases none with rfl | rfl
      · rw [Nat.zero_mul]
      · rw [Nat.zero_mul,Nat.mul_zero]
    unfold InterpolationKernel
    rw [forPixels_flat,count]
    rfl

omit [IsStrictOrderedRing F] in
private theorem triangle_returns {simd : Simd} (image : 0 < batch) (channel : 0 < channels)
    (agrees : TriangleAgrees simd src iw ih channels batch) : leastReturning simd ≤ iw ∧ 2 ≤ ih := by
  by_contra small
  obtain ⟨enough,runs⟩ := agrees fun _ _ => 0
  obtain ⟨stores,run,-⟩ := runs enough (Nat.le_refl _)
  rw [Upsample4x_planes] at run
  obtain ⟨before,after,run⟩ := tryLoop_passed run image
  obtain ⟨before,after,run⟩ := tryLoop_passed run channel
  exact channel_endless _ _ (by omega) before after run

/-- Where the last column lies in the first block, it takes in what lies behind the plane. -/
theorem triangle_differs {simd : Simd} (narrow : iw = alone simd + 1) (high : 2 ≤ ih)
    (image : 0 < batch) (channel : 0 < channels) : ¬TriangleAgrees simd src iw ih channels batch := by
  intro agrees
  let corner : Nat → F := fun inPtr => src (inPtr + ((ih - 1) * iw + (iw - 1)))
  obtain ⟨enough,runs⟩ := agrees fun inPtr _ => corner inPtr + 1
  let fuel := enough + iw + ih + 1
  obtain ⟨stores,run,agrees⟩ := runs fuel (by omega)
  have returning : leastReturning simd ≤ iw := by
    rw [narrow]
    cases simd <;> rfl
  obtain ⟨own,run',-,draws⟩ := Upsample4x_draws simd src (fun inPtr _ => corner inPtr + 1) channels batch
    returning high (show iw < fuel by omega) (show ih < fuel by omega)
  rw [Except.ok.inj (run'.symm.trans run)] at draws
  have same := congrFun ((draws.output ⟨src,[]⟩).symm.trans (agrees.output ⟨src,[]⟩))
    (plane (4 * iw) (4 * ih) channels 0 0 + ((4 * (ih - 1) + 3) * (4 * iw) + (4 * (iw - 1) + 3)))
  unfold InterpolationKernel at same
  rw [forPixels_dst _ _ _ _ _ _ _ _ image channel (by omega) (by omega),
    forPixels_dst _ _ _ _ _ _ _ _ image channel (by omega) (by omega)] at same
  have code := codePixel_corner src (fun inPtr _ => corner inPtr + 1) (plane iw ih channels 0 0) narrow
    high
  have kernel := kernel_corner src (plane iw ih channels 0 0) (show 1 ≤ iw by omega)
    (show 1 ≤ ih by omega)
  have impossible := code.symm.trans (same.trans kernel)
  linarith

theorem triangle_agrees_iff (simd : Simd) (src : Memory F) (iw ih channels batch : Nat) :
    TriangleAgrees simd src iw ih channels batch ↔
      batch = 0 ∨ channels = 0 ∨ leastAgreeing simd ≤ iw ∧ 2 ≤ ih := by
  constructor
  · intro agrees
    by_contra fails
    obtain ⟨image,channel,small⟩ := not_or.mp fails |>.imp_right not_or.mp
    obtain ⟨wide,high⟩ := triangle_returns (by omega) (by omega) agrees
    have narrow : iw = alone simd + 1 := by
      cases simd with
      | sse =>
        change 1 ≤ iw at wide
        change ¬(2 ≤ iw ∧ _) at small
        exact show iw = 0 + 1 by omega
      | avx2 =>
        change 2 ≤ iw at wide
        change ¬(3 ≤ iw ∧ _) at small
        exact show iw = 1 + 1 by omega
    exact triangle_differs narrow high (by omega) (by omega) agrees
  · rintro (none | none | ⟨wide,high⟩)
    · exact triangle_agrees_empty simd (.inl none)
    · exact triangle_agrees_empty simd (.inr none)
    · exact triangle_agrees wide high

theorem triangle_agrees_iff_square :
    TriangleAgrees .sse (fun i => (i : Rat)) 2 2 1 1 ∧
      ¬TriangleAgrees .avx2 (fun i => (i : Rat)) 2 2 1 1 := by
  constructor
  · exact (triangle_agrees_iff .sse _ 2 2 1 1).mpr (by decide)
  · exact mt (triangle_agrees_iff .avx2 _ 2 2 1 1).mp (by decide)

/-- One column, two columns with AVX2, and one row. -/
theorem triangle_single_block :
    ¬TriangleAgrees .sse (fun i => (i : Rat)) 1 2 1 1 ∧
      ¬TriangleAgrees .avx2 (fun i => (i : Rat)) 2 2 1 1 ∧
      ¬TriangleAgrees .sse (fun i => (i : Rat)) 2 1 1 1 := by
  refine ⟨?_,?_,?_⟩
  · exact triangle_differs rfl (by decide) (by decide) (by decide)
  · exact triangle_differs rfl (by decide) (by decide) (by decide)
  · exact fun agrees => absurd (triangle_returns (by decide) (by decide) agrees).2 (by decide)

end Agrees

end VideoAnalytics.Resample
