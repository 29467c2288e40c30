import IsekaiTerminal.Emulator.Lemmas.WellFormed

/-!
# 画像の配置

復号した画像の大きさと、配置の個数とバイト数の上限を示す。
-/

namespace IsekaiTerminal.Emulator

/-! ## 復号した画像の大きさ -/

theorem length_flatMap_eq {α β : Type} {f : α → List β} {k : Nat} {l : List α} (h : ∀ a ∈ l, (f a).length = k) :
    (l.flatMap f).length = k * l.length := by
  induction l with
  | nil => rfl
  | cons a l ih =>
      rw [List.flatMap_cons, List.length_append, h a List.mem_cons_self,
        ih fun b hb => h b (List.mem_cons_of_mem _ hb), List.length_cons, Nat.mul_succ, Nat.add_comm]

theorem length_expandPixel {channels : Nat} {px : List UInt8} (h : px.length = channels) :
    (expandPixel channels px).length = 4 := by
  unfold expandPixel
  split <;> simp_all

theorem length_expandPixels {channels count : Nat} {bytes : List UInt8} (h : bytes.length = count * channels) :
    (expandPixels channels count bytes).length = 4 * count := by
  rw [expandPixels, length_flatMap_eq, List.length_range]
  intro i hi
  have hlt := List.mem_range.1 hi
  have hfit : i * channels + channels ≤ count * channels := by
    rw [← Nat.succ_mul]
    exact Nat.mul_le_mul_right _ hlt
  exact length_expandPixel (by rw [List.length_take, List.length_drop]; omega)

/-- 復号した画像の大きさは上限に収まり、画素はその大きさに合う。 -/
def ImageSized (width height : Nat) (rgba : List UInt8) : Prop :=
  dimsOk width height = true ∧ rgba.length = 4 * (width * height)

/-- 復号した画像の画素は、上限を超えない。 -/
def ImageBounded (rgba : List UInt8) : Prop := rgba.length ≤ 4 * maxSixelArea

theorem ImageSized.bounded {width height : Nat} {rgba : List UInt8} (h : ImageSized width height rgba) :
    ImageBounded rgba := by
  obtain ⟨hdims, hlen⟩ := h
  have harea : width * height ≤ maxSixelArea := by
    simp only [dimsOk, Bool.and_eq_true, decide_eq_true_eq] at hdims
    exact hdims.2
  exact hlen.le.trans (Nat.mul_le_mul_left 4 harea)

theorem rgbaFromRaw_sized {bytes rgba : List UInt8} {width height bpp w h : Nat}
    (hraw : rgbaFromRaw bytes width height bpp = some (w, h, rgba)) : ImageSized w h rgba := by
  unfold rgbaFromRaw at hraw
  split at hraw
  · rename_i hok
    rw [Bool.and_eq_true, decide_eq_true_eq] at hok
    obtain ⟨rfl, rfl, rfl⟩ := by simpa using hraw
    exact ⟨hok.1, length_expandPixels hok.2⟩
  · cases hraw

theorem pngToRgba_sized {env : Env} {bytes rgba : List UInt8} {w h : Nat}
    (hpng : pngToRgba env bytes = some (w, h, rgba)) : ImageSized w h rgba := by
  obtain ⟨⟨width, height, channels, buf⟩, -, hpng⟩ := Option.bind_eq_some_iff.mp hpng
  simp only at hpng
  split at hpng
  · rename_i hok
    obtain ⟨rfl, rfl, rfl⟩ := by simpa using hpng
    simp only [Bool.and_eq_true, decide_eq_true_eq] at hok
    exact ⟨hok.1.1.1, length_expandPixels hok.2⟩
  · cases hpng

namespace KittyGraphics

variable {env : Env}

theorem decode_sized {pending : Pending} {w h : Nat} {rgba : List UInt8}
    (hdecoded : decode env pending = some (w, h, rgba)) : ImageSized w h rgba := by
  obtain ⟨bytes, -, hdecoded⟩ := Option.bind_eq_some_iff.mp hdecoded
  split at hdecoded
  · exact rgbaFromRaw_sized hdecoded
  · exact rgbaFromRaw_sized hdecoded
  · exact pngToRgba_sized hdecoded
  · cases hdecoded

theorem finalize_sized {pending : Pending} {img : KittyImage} (h : finalize env pending = .place img) :
    ImageSized img.width img.height img.rgba := by
  unfold finalize at h
  split at h
  · cases h
  · split at h
    · rename_i hdecoded
      injection h with h
      subst h
      exact decode_sized hdecoded
    · cases h

theorem proceed_sized {keys : List (UInt8 × List UInt8)} {pending : Pending} {img : KittyImage}
    (h : (proceed env keys pending).1 = .place img) : ImageSized img.width img.height img.rgba := by
  unfold proceed at h
  split at h
  · cases h
  · exact finalize_sized h

theorem startTransmit_sized {keys : List (UInt8 × List UInt8)} {data : List UInt8} {k : KittyGraphics}
    {img : KittyImage} (h : (startTransmit env keys data k).1 = .place img) :
    ImageSized img.width img.height img.rgba := by
  unfold startTransmit at h
  split at h
  · cases h
  · exact proceed_sized h

theorem continueTransmit_sized {keys : List (UInt8 × List UInt8)} {data : List UInt8} {pending : Pending}
    {img : KittyImage} (h : (continueTransmit env keys data pending).1 = .place img) :
    ImageSized img.width img.height img.rgba := by
  unfold continueTransmit at h
  split at h
  · exact proceed_sized h
  · exact proceed_sized h

theorem deleteCommand_ne_place (keys : List (UInt8 × List UInt8)) (img : KittyImage) :
    deleteCommand keys ≠ .place img := by
  unfold deleteCommand
  split
  · simp
  · simp
  · split <;> simp
  · split <;> simp
  · simp

/-- 置かれる画像の大きさは上限に収まり、画素はその大きさに合う。 -/
theorem dispatch_sized {k : KittyGraphics} {payload : List UInt8} {img : KittyImage}
    (h : (k.dispatch env payload).1 = .place img) : ImageSized img.width img.height img.rgba := by
  unfold dispatch at h
  simp only at h
  split at h
  · exact continueTransmit_sized h
  · split at h
    · cases h
    · split at h
      · exact startTransmit_sized h
      · exact startTransmit_sized h
      · exact (deleteCommand_ne_place _ _ h).elim
      · cases h

end KittyGraphics

theorem SixelDecoder.finish_bounded {d : SixelDecoder} {img : SixelImage} (h : d.finish = some img) :
    ImageBounded img.rgba := by
  unfold finish at h
  split at h
  · cases h
  · simp only at h
    split at h
    · cases h
    · split at h
      · cases h
      · rename_i harea
        injection h with h
        subst h
        have hrow (row : List UInt32) (width : Nat) :
            ((List.range width).flatMap fun x => pixelRgba (row[x]?.getD 0)).length = 4 * width := by
          rw [length_flatMap_eq (k := 4) fun _ _ => rfl, List.length_range]
        rw [ImageBounded, length_flatMap_eq fun row _ => hrow row _, Nat.mul_assoc]
        exact Nat.mul_le_mul_left 4 (Nat.le_of_not_gt harea)

/-! ## 配置 -/

theorem bounded_alone {img : ImagePlacement} (h : ImageBounded img.rgba) :
    ¬([img].length > maxLiveImages ∨ totalImageRgbaBytes [img] > maxTotalImageRgbaBytes) := by
  simp only [ImageBounded, maxSixelArea] at h
  simp only [List.length_singleton, maxLiveImages, totalImageRgbaBytes, List.map_cons, List.map_nil, List.sum_cons,
    List.sum_nil, maxTotalImageRgbaBytes]
  omega

/-- 古い画像から捨てても、新しい画像は残る。 -/
theorem Graphics.evict_wellFormed {cols rows : Nat} {new : ImagePlacement} (hnew : ImageBounded new.rgba)
    (g : Graphics) (old : List ImagePlacement) (hinside : ∀ img ∈ old ++ [new], img.Inside cols rows)
    (hids : ∀ id, g.kittyIdByPlacement id ≠ none → ∃ img ∈ old ++ [new], img.id = id)
    (hplacements : ∀ id, g.kittyPlacementIds id = true → ∃ img ∈ old ++ [new], img.id = id) :
    (g.evict (old ++ [new])).WellFormed cols rows ∧ new ∈ (g.evict (old ++ [new])).images := by
  induction old generalizing g with
  | nil =>
      rw [List.nil_append] at hinside hids hplacements ⊢
      rw [evict, if_neg (bounded_alone hnew)]
      have hbound := not_or.mp (bounded_alone hnew)
      exact ⟨⟨hinside, Nat.le_of_not_gt hbound.1, Nat.le_of_not_gt hbound.2, hids, hplacements⟩, List.mem_singleton_self _⟩
  | cons removed rest ih =>
      rw [List.cons_append] at hinside hids hplacements ⊢
      rw [evict]
      split
      · have hrest (id : UInt64) (hid : id ≠ removed.id) (h : ∃ img ∈ removed :: (rest ++ [new]), img.id = id) :
            ∃ img ∈ rest ++ [new], img.id = id := by
          obtain ⟨img, himg, rfl⟩ := h
          rcases List.mem_cons.mp himg with rfl | himg
          · exact (hid rfl).elim
          · exact ⟨img, himg, rfl⟩
        refine ih (g.forget removed.id) (fun img himg => hinside img (List.mem_cons_of_mem _ himg)) ?_ ?_
        · intro id hid
          by_cases heq : id = removed.id
          · simp [forget, heq] at hid
          · exact hrest id heq (hids id (by simpa [forget, Function.update_of_ne heq] using hid))
        · intro id hid
          by_cases heq : id = removed.id
          · simp [forget, heq] at hid
          · exact hrest id heq (hplacements id (by simpa [forget, Function.update_of_ne heq] using hid))
      · rename_i hbound
        have hbound := not_or.mp hbound
        exact ⟨⟨hinside, Nat.le_of_not_gt hbound.1, Nat.le_of_not_gt hbound.2, hids, hplacements⟩,
          List.mem_cons_of_mem _ (List.mem_append_right _ (List.mem_singleton_self _))⟩

namespace Graphics

variable {cols rows : Nat} {g : Graphics}

theorem WellFormed.setDecoders (h : g.WellFormed cols rows) (sixelDecoder : Option SixelDecoder) (kitty : KittyGraphics) :
    { g with sixelDecoder, kitty }.WellFormed cols rows :=
  { h with idsLive := h.idsLive, placementsLive := h.placementsLive }

theorem WellFormed.filter (h : g.WellFormed cols rows) (p : ImagePlacement → Bool) :
    (∀ img ∈ g.images.filter p, img.Inside cols rows) ∧ (g.images.filter p).length ≤ maxLiveImages ∧
      totalImageRgbaBytes (g.images.filter p) ≤ maxTotalImageRgbaBytes := by
  refine ⟨fun img himg => h.inside img (List.mem_of_mem_filter himg), (List.length_filter_le ..).trans h.count, ?_⟩
  exact (List.Sublist.sum_le_sum (List.filter_sublist.map _) (by simp)).trans h.bytes

theorem WellFormed.deleteAll (h : g.WellFormed cols rows) : g.deleteAll.WellFormed cols rows := by
  obtain ⟨hinside, hcount, hbytes⟩ := h.filter fun img => !g.kittyPlacementIds img.id
  exact ⟨hinside, hcount, hbytes, fun _ hid => (hid rfl).elim, fun _ hid => (Bool.false_ne_true hid).elim⟩

theorem WellFormed.deleteId (h : g.WellFormed cols rows) (kid : Nat) : (g.deleteId kid).WellFormed cols rows := by
  obtain ⟨hinside, hcount, hbytes⟩ := h.filter fun img => !decide (g.kittyIdByPlacement img.id = some kid)
  have hlive (id : UInt64) (hid : g.kittyIdByPlacement id ≠ some kid) (h : g.Live id) : (g.deleteId kid).Live id := by
    obtain ⟨img, himg, rfl⟩ := h
    exact ⟨img, List.mem_filter.mpr ⟨himg, by simpa using hid⟩, rfl⟩
  refine ⟨hinside, hcount, hbytes, fun id hid => ?_, fun id hid => ?_⟩
  · simp only [Graphics.deleteId, decide_eq_true_eq] at hid
    split at hid
    · exact (hid rfl).elim
    · rename_i hne
      exact hlive id hne (h.idsLive id hid)
  · simp only [Graphics.deleteId, Bool.and_eq_true, Bool.not_eq_true', decide_eq_false_iff_not] at hid
    exact hlive id hid.2 (h.placementsLive id hid.1)

end Graphics

namespace Terminal

variable {t : Terminal}

/-- 画像とカーソルだけが変わり、画像の条件は保たれる。 -/
def ImagesPlaced (t : Terminal) (result : Option Terminal) : Prop :=
  ∃ graphics cursor, result = some { t with graphics, cursor } ∧ graphics.WellFormed t.cols t.rows ∧
    cursor.Inside t.cols t.rows

theorem pushImage_placed (h : t.WellFormed) {rgba : List UInt8} (hrgba : ImageBounded rgba) (width height : Nat) :
    ∃ graphics cursor, t.pushImage width height rgba = some (t.graphics.nextImageId, { t with graphics, cursor }) ∧
      graphics.WellFormed t.cols t.rows ∧ cursor.Inside t.cols t.rows ∧ graphics.Live t.graphics.nextImageId := by
  have hcols := h.cols
  have hrows := h.rows
  unfold pushImage
  simp only [Lib.sub?_eq_some (show min t.cursor.col (t.cols - 1) ≤ t.cols by omega),
    Lib.sub?_eq_some (show min t.cursor.row (t.rows - 1) ≤ t.rows by omega), Option.bind_eq_bind, Option.bind_some]
  generalize hc : min (max ((width + sixelCellWidthPx - 1) / sixelCellWidthPx) 1)
    (t.cols - min t.cursor.col (t.cols - 1)) = colsSpan
  generalize hr : min (max ((height + sixelCellHeightPx - 1) / sixelCellHeightPx) 1)
    (t.rows - min t.cursor.row (t.rows - 1)) = rowsSpan
  have hinside {pos span cell total : Nat} (hlt : 0 < total) (hspan : min span (total - min pos (total - 1)) = cell) :
      min pos (total - 1) % 2 ^ 32 < total ∧ min pos (total - 1) % 2 ^ 32 + cell % 2 ^ 32 ≤ total := by
    have hat : min pos (total - 1) < total := by omega
    have hcell : min pos (total - 1) + cell ≤ total := by omega
    exact ⟨(Nat.mod_le ..).trans_lt hat, (Nat.add_le_add (Nat.mod_le ..) (Nat.mod_le ..)).trans hcell⟩
  obtain ⟨hcol, hright⟩ := hinside hcols hc
  obtain ⟨hrow, hbottom⟩ := hinside hrows hr
  have hlive {p : UInt64 → Prop} {new : ImagePlacement} (hp : ∀ id, p id → t.graphics.Live id) (id : UInt64) (hid : p id) :
      ∃ img ∈ t.graphics.images ++ [new], img.id = id := by
    obtain ⟨img, himg, heq⟩ := hp id hid
    exact ⟨img, List.mem_append_left _ himg, heq⟩
  have hevict := @Graphics.evict_wellFormed t.cols t.rows
    { id := t.graphics.nextImageId, row := min t.cursor.row (t.rows - 1) % 2 ^ 32
      col := min t.cursor.col (t.cols - 1) % 2 ^ 32, rowsSpan := rowsSpan % 2 ^ 32, colsSpan := colsSpan % 2 ^ 32
      widthPx := width % 2 ^ 32, heightPx := height % 2 ^ 32, rgba } hrgba
    { t.graphics with nextImageId := t.graphics.nextImageId + 1 } t.graphics.images
    (fun img himg => by
      rcases List.mem_append.mp himg with himg | himg
      · exact h.graphics.inside img himg
      · rw [List.mem_singleton.mp himg]
        exact ⟨hrow, hcol, hbottom, hright⟩)
    (hlive h.graphics.idsLive) (hlive h.graphics.placementsLive)
  refine ⟨_, _, rfl, hevict.1, ⟨?_, Nat.zero_le _⟩, _, hevict.2, rfl⟩
  exact Nat.lt_of_le_of_lt (Nat.min_le_right ..) (Nat.sub_lt hrows Nat.one_pos)

theorem placeSixelImage_placed (h : t.WellFormed) {img : SixelImage} (hrgba : ImageBounded img.rgba) :
    t.ImagesPlaced (t.placeSixelImage img) := by
  obtain ⟨graphics, cursor, hpush, hgraphics, hcursor, -⟩ := pushImage_placed h hrgba img.width img.height
  exact ⟨graphics, cursor, by rw [placeSixelImage, hpush, Option.map_some], hgraphics, hcursor⟩

theorem placeKittyImage_placed (h : t.WellFormed) {img : KittyImage} (hrgba : ImageBounded img.rgba) :
    t.ImagesPlaced (t.placeKittyImage img) := by
  obtain ⟨graphics, cursor, hpush, hgraphics, hcursor, hlive⟩ := pushImage_placed h hrgba img.width img.height
  unfold placeKittyImage
  rw [hpush]
  refine ⟨_, cursor, rfl, ⟨hgraphics.inside, hgraphics.count, hgraphics.bytes, fun id hid => ?_, fun id hid => ?_⟩, hcursor⟩
  · simp only at hid
    by_cases heq : id = t.graphics.nextImageId
    · exact heq ▸ hlive
    · refine hgraphics.idsLive id ?_
      cases hkid : img.kittyId with
      | none => simpa only [hkid] using hid
      | some kid => simpa only [hkid, Function.update_of_ne heq] using hid
  · simp only at hid
    by_cases heq : id = t.graphics.nextImageId
    · exact heq ▸ hlive
    · exact hgraphics.placementsLive id (by rwa [Function.update_of_ne heq] at hid)

theorem WellFormed.setGraphics (h : t.WellFormed) {graphics : Graphics} (hgraphics : graphics.WellFormed t.cols t.rows) :
    { t with graphics }.WellFormed :=
  { h with graphics := hgraphics }

theorem dispatchKittyApc_placed (h : t.WellFormed) (env : Env) (payload : List UInt8) :
    t.ImagesPlaced (t.dispatchKittyApc env payload) := by
  unfold dispatchKittyApc
  simp only
  have hkitty := h.graphics.setDecoders t.graphics.sixelDecoder (t.graphics.kitty.dispatch env payload).2
  split
  · rename_i img hplace
    exact placeKittyImage_placed (h.setGraphics hkitty) (KittyGraphics.dispatch_sized hplace).bounded
  · exact ⟨_, t.cursor, rfl, hkitty.deleteAll, h.cursor⟩
  · exact ⟨_, t.cursor, rfl, hkitty.deleteId _, h.cursor⟩
  · exact ⟨_, t.cursor, rfl, hkitty, h.cursor⟩

theorem setSixelDecoder_placed (h : t.WellFormed) (dec : Option SixelDecoder) :
    t.ImagesPlaced (some (t.setSixelDecoder dec)) :=
  ⟨_, t.cursor, rfl, h.graphics.setDecoders dec t.graphics.kitty, h.cursor⟩

theorem unhook_placed (h : t.WellFormed) : t.ImagesPlaced t.unhook := by
  unfold unhook
  split
  · rename_i img hfinish
    obtain ⟨dec, -, hfinish⟩ := Option.bind_eq_some_iff.mp hfinish
    exact placeSixelImage_placed (h.setGraphics (h.graphics.setDecoders none t.graphics.kitty))
      (SixelDecoder.finish_bounded hfinish)
  · exact setSixelDecoder_placed h none

end Terminal

end IsekaiTerminal.Emulator
