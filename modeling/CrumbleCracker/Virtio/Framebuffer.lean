import CrumbleCracker.Lib.Bytes

/-!
# The framebuffer and its readers

A framebuffer keeps one dirty rectangle for all its readers and clears it for whoever fetches the whole of it. A reader
is known by the generation of its last update only. In every run, a snapshot of the whole framebuffer brings a reader's
copy up to date if no other reader has taken damage away from it, or if nothing is dirty and its generation is an old
one (`snapshot_shows`); otherwise it may miss the damage for good (`damage_missed`).
-/

namespace CrumbleCracker.Virtio.Display

/-! ## Rectangles -/

structure Rectangle where
  minX : Int
  minY : Int
  maxX : Int
  maxY : Int
deriving DecidableEq

namespace Rectangle

variable (r s : Rectangle)

def zero : Rectangle := ⟨0, 0, 0, 0⟩

def Empty : Prop := r.maxX ≤ r.minX ∨ r.maxY ≤ r.minY
deriving Decidable

def overlap : Rectangle := ⟨max r.minX s.minX, max r.minY s.minY, min r.maxX s.maxX, min r.maxY s.maxY⟩

def intersect : Rectangle := if (r.overlap s).Empty then zero else r.overlap s

def union : Rectangle :=
  if r.Empty then s
  else if s.Empty then r
  else ⟨min r.minX s.minX, min r.minY s.minY, max r.maxX s.maxX, max r.maxY s.maxY⟩

def dx : Int := r.maxX - r.minX

def dy : Int := r.maxY - r.minY

def Has (x y : Nat) : Prop := r.minX ≤ x ∧ x < r.maxX ∧ r.minY ≤ y ∧ y < r.maxY
deriving Decidable

variable {r s} {x y : Nat}

theorem not_empty_of_has (h : r.Has x y) : ¬r.Empty := by
  obtain ⟨h₁, h₂, h₃, h₄⟩ := h
  rintro (h | h) <;> omega

theorem has_intersect : (r.intersect s).Has x y ↔ r.Has x y ∧ s.Has x y := by
  unfold intersect
  split
  · rename_i hempty
    simp only [Empty, overlap] at hempty
    simp only [Has, zero]
    omega
  · simp only [Has, overlap]
    omega

theorem has_union : r.Has x y ∨ s.Has x y → (r.union s).Has x y := by
  unfold union
  rintro (h | h)
  · rw [if_neg (not_empty_of_has h)]
    split
    · exact h
    · simp only [Has] at h ⊢
      omega
  · split
    · exact h
    · rw [if_neg (not_empty_of_has h)]
      simp only [Has] at h ⊢
      omega

end Rectangle

/-! ## Copying rows -/

/-- `rows` rows of `n` bytes are copied to every `stride` bytes from `start` on; `row k` is the source of row `k`. -/
def blit (dst : Nat → UInt8) (start stride n : Nat) (row : Nat → Nat → UInt8) : Nat → Nat → UInt8
  | 0, o => dst o
  | rows + 1, o =>
    if start + rows * stride ≤ o ∧ o < start + rows * stride + n then row rows (o - (start + rows * stride))
    else blit dst start stride n row rows o

section Blit

variable {dst : Nat → UInt8} {start stride n rows : Nat} {row : Nat → Nat → UInt8}

theorem blit_row {k b : Nat} (hn : n ≤ stride) (hk : k < rows) (hb : b < n) :
    blit dst start stride n row rows (start + k * stride + b) = row k b := by
  induction rows with
  | zero => omega
  | succ rows ih =>
    rw [blit]
    rcases Nat.lt_succ_iff_lt_or_eq.mp hk with hlt | rfl
    · have hnext : k * stride + stride ≤ rows * stride := by
        rw [← Nat.succ_mul]
        exact Nat.mul_le_mul_right _ hlt
      rw [if_neg (by omega), ih hlt]
    · rw [if_pos (by omega), Nat.add_sub_cancel_left]

theorem blit_outside {o : Nat} (h : ∀ k < rows, ¬(start + k * stride ≤ o ∧ o < start + k * stride + n)) :
    blit dst start stride n row rows o = dst o := by
  induction rows with
  | zero => rfl
  | succ rows ih =>
    rw [blit, if_neg (h rows (Nat.lt_succ_self _))]
    exact ih fun k hk => h k (Nat.lt_succ_of_lt hk)

end Blit

/-! ## The framebuffer -/

/-- Pixels are four bytes each, row by row. -/
structure Framebuffer where
  width : Nat
  height : Nat
  pixels : Nat → UInt8
  generation : UInt64
  dirty : Rectangle

structure FramebufferUpdate where
  width : Nat
  height : Nat
  generation : UInt64
  rect : Rectangle
  pixels : Nat → UInt8

inductive FramebufferError
  | dimensions (width height : Int)
  | stride (srcStride rowBytes : Int)
  | short (required length : Int)
deriving DecidableEq

def maxInt : Int := 2 ^ 63 - 1

/-- An `int` after its arithmetic. -/
def int64 (n : Int) : Int := n.bmod (2 ^ 64)

def checkedPixelBytes (width height : Int) : Option Int :=
  if width ≤ 0 ∨ height ≤ 0 ∨ maxInt / 4 < width ∨ maxInt / (width * 4) < height then none
    else some (width * height * 4)

def newFramebuffer (width height : Int) : Except FramebufferError Framebuffer :=
  match checkedPixelBytes width height with
  | none => .error (.dimensions width height)
  | some _ => .ok ⟨width.toNat, height.toNat, fun _ => 0, 0, ⟨0, 0, width, height⟩⟩

namespace Framebuffer

variable (f : Framebuffer)

def bounds : Rectangle := ⟨0, 0, f.width, f.height⟩

def pixel (x y b : Nat) : UInt8 := f.pixels ((y * f.width + x) * 4 + b)

def markDirtyLocked (rect : Rectangle) : Framebuffer :=
  if rect.Empty then f
  else { f with dirty := if f.dirty.Empty then rect else f.dirty.union rect, generation := f.generation + 1 }

def markDirty (rect : Rectangle) : Framebuffer := f.markDirtyLocked (rect.intersect f.bounds)

/-- The offset of the first pixel of a rectangle. -/
def first (rect : Rectangle) : Nat := (rect.minY.toNat * f.width + rect.minX.toNat) * 4

/-- `none`: a slice of the source is out of range, which panics. -/
def update (rect : Rectangle) (src : Bytes) (srcStride : Int) : Option (Option FramebufferError × Framebuffer) :=
  let rect := rect.intersect f.bounds
  let rowBytes := rect.dx * 4
  let required := int64 ((rect.dy - 1) * srcStride + rowBytes)
  if rect.Empty then some (none, f)
  else if srcStride < rowBytes then some (some (.stride srcStride rowBytes), f)
  else if required < 0 ∨ src.length < required then some (some (.short required src.length), f)
  else if ∀ y < rect.dy.toNat, 0 ≤ int64 (y * srcStride) ∧ int64 (y * srcStride) + rowBytes ≤ src.length then
    some (none, { f with
      pixels := blit f.pixels (f.first rect) (f.width * 4) rowBytes.toNat
        (fun y i => src.getD ((int64 (y * srcStride)).toNat + i) 0) rect.dy.toNat }.markDirtyLocked rect)
  else none

def resize (width height : Int) : Option FramebufferError × Framebuffer :=
  match checkedPixelBytes width height with
  | none => (some (.dimensions width height), f)
  | some _ =>
    if width = f.width ∧ height = f.height then (none, f)
    else (none, {
      width := width.toNat
      height := height.toNat
      pixels := blit (fun _ => 0) 0 (width.toNat * 4) (min width.toNat f.width * 4)
        (fun y i => f.pixels (y * f.width * 4 + i)) (min height.toNat f.height)
      dirty := ⟨0, 0, width, height⟩
      generation := f.generation + 1 })

def snapshotRect (request : Rectangle) (since : UInt64) (incremental : Bool) : Rectangle :=
  let request := request.intersect f.bounds
  if incremental = false then request
  else if ¬f.dirty.Empty then request.intersect f.dirty
  else if since = f.generation then .zero
  else request

def updateOf (rect : Rectangle) : FramebufferUpdate where
  width := f.width
  height := f.height
  generation := f.generation
  rect := rect
  pixels := blit (fun _ => 0) 0 (rect.dx * 4).toNat (rect.dx * 4).toNat
    (fun y i => f.pixels (f.first rect + y * (f.width * 4) + i)) rect.dy.toNat

/-- A snapshot that returns the whole dirty rectangle clears it. -/
def taken (rect : Rectangle) : Framebuffer := if ¬rect.Empty ∧ rect = f.dirty then { f with dirty := .zero } else f

def snapshot (request : Rectangle) (since : UInt64) (incremental : Bool) : FramebufferUpdate × Framebuffer :=
  let rect := f.snapshotRect request since incremental
  (f.updateOf rect, f.taken rect)

end Framebuffer

/-! ## Readers -/

/-- A reader's copy of the pixels, and the generation of its last update. -/
structure Reader where
  width : Nat
  height : Nat
  pixel : Nat → Nat → Nat → UInt8
  generation : UInt64

def Reader.apply (r : Reader) (u : FramebufferUpdate) : Reader where
  width := u.width
  height := u.height
  pixel x y b :=
    if u.rect.Has x y then u.pixels (((y - u.rect.minY.toNat) * u.rect.dx.toNat + (x - u.rect.minX.toNat)) * 4 + b)
    else r.pixel x y b
  generation := u.generation

def Reader.Shows (r : Reader) (f : Framebuffer) : Prop :=
  r.width = f.width ∧ r.height = f.height ∧ ∀ x y b, f.bounds.Has x y → b < 4 → r.pixel x y b = f.pixel x y b

structure World where
  framebuffer : Framebuffer
  reader : Nat → Reader
  /-- The reader may lack damage that is no longer dirty. -/
  stale : Nat → Bool

inductive Op
  | update (rect : Rectangle) (src : Bytes) (srcStride : Int)
  | markDirty (rect : Rectangle)
  | resize (width height : Int)
  | snapshot (reader : Nat) (request : Rectangle) (incremental : Bool)

namespace World

/-- Reader `i` gets an update, which leaves the framebuffer `f`. If it clears the dirty rectangle the other readers are
stale; a reader that gets the whole framebuffer is not stale any more. -/
def fetch (w : World) (i : Nat) (u : FramebufferUpdate) (f : Framebuffer) : World where
  framebuffer := f
  reader := Function.update w.reader i ((w.reader i).apply u)
  stale j :=
    if j = i then w.stale i && u.rect ≠ w.framebuffer.bounds
    else w.stale j || (¬u.rect.Empty ∧ u.rect = w.framebuffer.dirty)

def step (w : World) : Op → Option World
  | .update rect src srcStride => (w.framebuffer.update rect src srcStride).map fun r => { w with framebuffer := r.2 }
  | .markDirty rect => some { w with framebuffer := w.framebuffer.markDirty rect }
  | .resize width height => some { w with framebuffer := (w.framebuffer.resize width height).2 }
  | .snapshot i request incremental =>
    let (u, f) := w.framebuffer.snapshot request (w.reader i).generation incremental
    some (w.fetch i u f)

def run (ops : List Op) (w : World) : Option World := ops.foldlM step w

/-- No reader has fetched anything yet. -/
def start (f : Framebuffer) (reader : Nat → Reader) : World := ⟨f, reader, fun _ => true⟩

/-- The dirty rectangle tells the reader what it lacks, or its generation tells that it lacks something. -/
def Told (w : World) (i : Nat) : Prop :=
  w.stale i = false ∨ w.framebuffer.dirty.Empty ∧ (w.reader i).generation ≠ w.framebuffer.generation

end World

/-! ## Damage -/

variable {f : Framebuffer} {r : Reader} {rect : Rectangle} {x y b : Nat}

/-- What the copy lacks is dirty. -/
def Fresh (r : Reader) (f : Framebuffer) : Prop :=
  ∀ x y b, f.bounds.Has x y → ¬f.dirty.Has x y → b < 4 → r.pixel x y b = f.pixel x y b

theorem Fresh.marked (h : Fresh r f) {pixels : Nat → UInt8}
    (hpixels : ∀ {x y b}, f.bounds.Has x y → ¬rect.Has x y → b < 4 →
      pixels ((y * f.width + x) * 4 + b) = f.pixel x y b) :
    Fresh r ({ f with pixels := pixels }.markDirtyLocked rect) := by
  unfold Framebuffer.markDirtyLocked
  split
  · rename_i hempty
    intro x y b hin hclean hb
    refine (h x y b hin hclean hb).trans (hpixels hin ?_ hb).symm
    exact fun hx => Rectangle.not_empty_of_has hx hempty
  · intro x y b hin hclean hb
    have hdirty : ¬(f.dirty.Has x y ∨ rect.Has x y) := by
      intro hx
      refine hclean ?_
      show (if f.dirty.Empty then rect else f.dirty.union rect).Has x y
      split
      · rename_i hempty
        exact hx.resolve_left fun hx => Rectangle.not_empty_of_has hx hempty
      · exact Rectangle.has_union hx
    obtain ⟨hold, hrect⟩ := not_or.mp hdirty
    exact (h x y b hin hold hb).trans (hpixels hin hrect hb).symm

def Inside (rect : Rectangle) (f : Framebuffer) : Prop :=
  0 ≤ rect.minX ∧ 0 ≤ rect.minY ∧ rect.maxX ≤ f.width ∧ rect.maxY ≤ f.height

theorem inside_zero (f : Framebuffer) : Inside .zero f :=
  ⟨Int.le_refl 0, Int.le_refl 0, Int.natCast_nonneg _, Int.natCast_nonneg _⟩

theorem inside_intersect_bounds (rect : Rectangle) (f : Framebuffer) : Inside (rect.intersect f.bounds) f := by
  unfold Rectangle.intersect
  split
  · exact inside_zero f
  · simp only [Inside, Rectangle.overlap, Framebuffer.bounds]
    omega

theorem Inside.intersect (h : Inside rect f) (other : Rectangle) : Inside (rect.intersect other) f := by
  unfold Rectangle.intersect
  split
  · exact inside_zero f
  · simp only [Inside, Rectangle.overlap] at h ⊢
    omega

theorem inside_snapshotRect (f : Framebuffer) (request : Rectangle) (since : UInt64) (incremental : Bool) :
    Inside (f.snapshotRect request since incremental) f := by
  unfold Framebuffer.snapshotRect
  dsimp only
  split
  · exact inside_intersect_bounds _ _
  · split
    · exact (inside_intersect_bounds _ _).intersect _
    · split
      · exact inside_zero f
      · exact inside_intersect_bounds _ _

theorem row_unique {w y y' x : Nat} (hx : x < w) (hle : y' * w ≤ y * w + x)
    (hlt : y * w + x < y' * w + w) : y = y' := by
  rcases Nat.lt_trichotomy y y' with h | h | h
  · have := Nat.mul_le_mul_right w h
    rw [Nat.succ_mul] at this
    omega
  · exact h
  · have := Nat.mul_le_mul_right w h
    rw [Nat.succ_mul] at this
    omega

theorem Fresh.update (h : Fresh r f) {src : Bytes} {srcStride : Int} {result : Option FramebufferError × Framebuffer}
    (hupdate : f.update rect src srcStride = some result) : Fresh r result.2 := by
  have hinside := inside_intersect_bounds rect f
  simp only [Framebuffer.update] at hupdate
  generalize rect.intersect f.bounds = rect at hupdate hinside
  obtain ⟨hx₀, hy₀, hx₁, hy₁⟩ := hinside
  split_ifs at hupdate
  case pos | pos | pos =>
    cases hupdate
    exact h
  cases hupdate
  refine h.marked fun {x y b} hin hout hb => blit_outside fun k hk hrow => hout ?_
  -- The row that holds the byte is the row of the pixel.
  obtain ⟨hx, hx', hy, hy'⟩ := hin
  simp only [Framebuffer.bounds] at hx' hy'
  simp only [Framebuffer.first, Rectangle.dx, ← Nat.mul_assoc] at hrow
  have hrowEq : (rect.minY.toNat + k) * f.width = rect.minY.toNat * f.width + k * f.width := Nat.add_mul _ _ _
  have hy : y = rect.minY.toNat + k := row_unique (w := f.width) (x := x) (by omega) (by omega) (by omega)
  subst hy
  simp only [Rectangle.dy] at hk
  refine ⟨?_, ?_, ?_, ?_⟩ <;> omega

theorem apply_pixel (hin : Inside rect f) (hb : b < 4) (hx : rect.Has x y) :
    (r.apply (f.updateOf rect)).pixel x y b = f.pixel x y b := by
  obtain ⟨hx₀, hy₀, hx₁, hy₁⟩ := hin
  have hcopy : (r.apply (f.updateOf rect)).pixel x y b =
      (f.updateOf rect).pixels (((y - rect.minY.toNat) * rect.dx.toNat + (x - rect.minX.toNat)) * 4 + b) := if_pos hx
  obtain ⟨hminX, hmaxX, hminY, hmaxY⟩ := hx
  obtain ⟨i, hi⟩ : ∃ i, x = rect.minX.toNat + i := ⟨x - rect.minX.toNat, by omega⟩
  obtain ⟨k, hk⟩ : ∃ k, y = rect.minY.toNat + k := ⟨y - rect.minY.toNat, by omega⟩
  have hlen : (rect.dx * 4).toNat = rect.dx.toNat * 4 := by
    simp only [Rectangle.dx]
    omega
  have hoff : ((y - rect.minY.toNat) * rect.dx.toNat + (x - rect.minX.toNat)) * 4 + b =
      0 + k * (rect.dx * 4).toNat + (i * 4 + b) := by
    rw [hi, hk, Nat.add_sub_cancel_left, Nat.add_sub_cancel_left, hlen]
    ring
  rw [hcopy, hoff]
  refine (blit_row (Nat.le_refl _) ?_ ?_).trans ?_
  · simp only [Rectangle.dy]
    omega
  · simp only [Rectangle.dx]
    omega
  · show f.pixels _ = f.pixels _
    congr 1
    rw [hi, hk, Framebuffer.first]
    ring

theorem Fresh.apply (h : Fresh r f) (hin : Inside rect f) : Fresh (r.apply (f.updateOf rect)) (f.taken rect) := by
  have hpixel : ∀ x y b, f.bounds.Has x y → b < 4 → rect.Has x y ∨ ¬f.dirty.Has x y →
      (r.apply (f.updateOf rect)).pixel x y b = f.pixel x y b := by
    intro x y b hxy hb hor
    by_cases hx : rect.Has x y
    · exact apply_pixel hin hb hx
    · exact (if_neg hx).trans (h x y b hxy (hor.resolve_left hx) hb)
  unfold Framebuffer.taken
  split
  · rename_i hall
    exact fun x y b hxy _ hb => hpixel x y b hxy hb (hall.2 ▸ em _)
  · exact fun x y b hxy hclean hb => hpixel x y b hxy hb (.inr hclean)

theorem shows_whole (hin : Inside rect f) (h : ∀ x y, f.bounds.Has x y → rect.Has x y) :
    (r.apply (f.updateOf rect)).Shows f := ⟨rfl, rfl, fun x y _ hxy hb => apply_pixel hin hb (h x y hxy)⟩

theorem Reader.Shows.fresh (h : r.Shows f) (rect : Rectangle) : Fresh r (f.taken rect) := by
  unfold Framebuffer.taken
  split <;> exact fun x y b hxy _ hb => h.2.2 x y b hxy hb

theorem Fresh.resize (h : Fresh r f) (width height : Int) : Fresh r (f.resize width height).2 := by
  unfold Framebuffer.resize
  split
  · exact h
  · split
    · exact h
    · -- Everything is dirty.
      intro x y b hin hclean
      refine absurd ?_ hclean
      simp only [Framebuffer.bounds, Rectangle.Has] at hin ⊢
      omega

/-! ## Runs -/

/-- The readers that are not stale are fresh. -/
def World.Sound (w : World) : Prop := ∀ i, w.stale i = false → Fresh (w.reader i) w.framebuffer

theorem World.Sound.fetch {w : World} (h : w.Sound) (j : Nat) (hin : Inside rect w.framebuffer) :
    (w.fetch j (w.framebuffer.updateOf rect) (w.framebuffer.taken rect)).Sound := by
  intro i hi
  simp only [World.fetch] at hi ⊢
  by_cases hij : i = j
  · subst hij
    rw [Function.update_self]
    rcases Bool.and_eq_false_iff.mp ((if_pos rfl).symm.trans hi) with hstale | hwhole
    · exact (h i hstale).apply hin
    · have hrect : rect = w.framebuffer.bounds := not_not.mp (of_decide_eq_false hwhole)
      exact (shows_whole hin fun x y hxy => hrect ▸ hxy).fresh rect
  · rw [Function.update_of_ne hij]
    obtain ⟨hstale, hkept⟩ := Bool.or_eq_false_iff.mp ((if_neg hij).symm.trans hi)
    have hkept : ¬(¬rect.Empty ∧ rect = w.framebuffer.dirty) := of_decide_eq_false hkept
    rw [Framebuffer.taken, if_neg hkept]
    exact h i hstale

theorem World.Sound.step {w w' : World} {op : Op} (h : w.Sound) (hw : w.step op = some w') : w'.Sound := by
  cases op with
  | update rect src srcStride =>
    obtain ⟨result, hupdate, rfl⟩ := Option.map_eq_some_iff.mp hw
    exact fun i hi => (h i hi).update hupdate
  | markDirty rect =>
    cases hw
    exact fun i hi => (h i hi).marked fun _ _ _ => rfl
  | resize width height =>
    cases hw
    exact fun i hi => (h i hi).resize width height
  | snapshot i request incremental =>
    cases hw
    exact h.fetch i (inside_snapshotRect _ _ _ _)

theorem World.Sound.run {ops : List Op} {w w' : World} (h : w.Sound) (hw : w.run ops = some w') : w'.Sound := by
  induction ops generalizing w with
  | nil =>
    cases hw
    exact h
  | cons op ops ih =>
    obtain ⟨w₁, hstep, hrest⟩ := Option.bind_eq_some_iff.mp hw
    exact ih (h.step hstep) hrest

/-- In every run, an incremental snapshot of the whole framebuffer brings a reader up to date that is told what it
lacks. -/
theorem snapshot_shows (f : Framebuffer) (reader : Nat → Reader) {ops : List Op} {w : World}
    (hw : (World.start f reader).run ops = some w) {i : Nat} {request : Rectangle}
    (hwhole : ∀ x y, w.framebuffer.bounds.Has x y → request.Has x y) (htold : w.Told i) :
    ((w.reader i).apply (w.framebuffer.snapshot request (w.reader i).generation true).1).Shows w.framebuffer := by
  have hsound : w.Sound := World.Sound.run (fun _ h => Bool.noConfusion h) hw
  have hin := inside_snapshotRect w.framebuffer request (w.reader i).generation true
  have hrequest : ∀ x y, w.framebuffer.bounds.Has x y → (request.intersect w.framebuffer.bounds).Has x y :=
    fun x y hxy => Rectangle.has_intersect.mpr ⟨hwhole x y hxy, hxy⟩
  by_cases hold : w.framebuffer.dirty.Empty ∧ (w.reader i).generation ≠ w.framebuffer.generation
  · -- Everything is returned.
    refine shows_whole hin fun x y hxy => ?_
    simp only [Framebuffer.snapshotRect, Bool.true_eq_false, if_false, hold.1, hold.2, not_true]
    exact hrequest x y hxy
  · -- All that is dirty is returned.
    have hfresh := hsound i (htold.resolve_right hold)
    refine ⟨rfl, rfl, fun x y b hxy hb => ?_⟩
    by_cases hx : (w.framebuffer.snapshotRect request (w.reader i).generation true).Has x y
    · exact apply_pixel hin hb hx
    · refine (if_neg hx).trans (hfresh x y b hxy (fun hdirty => hx ?_) hb)
      simp only [Framebuffer.snapshotRect, Bool.true_eq_false, if_false, Rectangle.not_empty_of_has hdirty,
        not_false_iff, if_true]
      exact Rectangle.has_intersect.mpr ⟨hrequest x y hxy, hdirty⟩

/-! ## Two readers -/

def blank : Reader := ⟨0, 0, fun _ _ _ => 0, 0⟩

def screen : Rectangle := ⟨0, 0, 2, 1⟩

def small : Framebuffer := ⟨2, 1, fun _ => 0, 0, screen⟩

def draw (x : Int) : Op := .update ⟨x, 0, x + 1, 1⟩ [7, 7, 7, 7] 4

theorem snapshot_shows_alone : ∃ w,
    (World.start small fun _ => blank).run [.snapshot 0 screen false, draw 0, draw 1] = some w ∧
    ((w.reader 0).apply (w.framebuffer.snapshot screen (w.reader 0).generation true).1).Shows w.framebuffer := by
  have hrun : (World.start small fun _ => blank).run [.snapshot 0 screen false, draw 0, draw 1] = some _ := rfl
  exact ⟨_, hrun, snapshot_shows small _ hrun (fun _ _ h => h) (.inl rfl)⟩

/-- Reader 1 fetches the damage to the first pixel; then the second is drawn, and reader 0 gets that one only. -/
theorem damage_missed : newFramebuffer 2 1 = .ok small ∧ ∃ w, (World.start small fun _ => blank).run
      [.snapshot 0 screen false, .snapshot 1 screen false, draw 0, .snapshot 1 screen true, draw 1] = some w ∧
    ¬((w.reader 0).apply (w.framebuffer.snapshot screen (w.reader 0).generation true).1).Shows w.framebuffer := by
  refine ⟨rfl, _, rfl, fun h => ?_⟩
  have hpixel := h.2.2 0 0 0 (by decide) (by decide)
  exact absurd hpixel (by decide)

end CrumbleCracker.Virtio.Display
