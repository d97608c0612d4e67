import Mathlib.Data.List.Basic

/-!
# Resizing a terminal

`Emulator.resize` gives both screens of a terminal a new size. A screen that gets fewer rows keeps its first ones, and
its first ones are also what it adds to its history: `resize_partition_iff` says for which screens nothing is lost by
that.
-/

namespace CrumbleCracker.Ptyterm

open List

structure Size where
  cols : Int
  rows : Int

structure Cursor where
  x : Int := 0
  y : Int := 0

structure Attr where
  bold : Bool := false
  underline : Bool := false
  inverse : Bool := false
  fg : Int := -1
  bg : Int := -1
deriving DecidableEq

structure Cell where
  r : Char
  attr : Attr := {}
deriving DecidableEq

structure ScreenBuffer where
  lines : List (List Cell)
  hist : List (List Cell) := []

/-- The fields of `Emulator` that depend on its size. -/
structure Emulator where
  size : Size
  historyLimit : Int
  cursor : Cursor := {}
  savedCursor : Cursor := {}
  altSavedCursor : Cursor := {}
  main : ScreenBuffer
  alt : ScreenBuffer
  scrollTop : Int := 0
  scrollBottom : Int

def normalizeSize (size : Size) : Size :=
  { cols := if size.cols ≤ 0 then 80 else size.cols, rows := if size.rows ≤ 0 then 24 else size.rows }

def clampCursor (c : Cursor) (size : Size) : Cursor :=
  let x := max c.x 0
  let y := max c.y 0
  { x := if x ≥ size.cols then size.cols - 1 else x, y := if y ≥ size.rows then size.rows - 1 else y }

def blankLine (cols : Nat) : List Cell := List.replicate cols { r := ' ' }

/-- `copy(dst, src)`. -/
def copyTo {α : Type} (dst src : List α) : List α := src.take dst.length ++ dst.drop src.length

/-- The line at a width of `cols`. -/
def fit (cols : Nat) (line : List Cell) : List Cell := copyTo (blankLine cols) line

namespace ScreenBuffer

def new (size : Size) : ScreenBuffer := { lines := List.replicate size.rows.toNat (blankLine size.cols.toNat) }

def trimHistory (b : ScreenBuffer) (limit : Int) : ScreenBuffer :=
  { b with hist := if limit ≤ 0 then [] else b.hist.drop (b.hist.length - limit.toNat) }

def resize (b : ScreenBuffer) (size : Size) (historyLimit : Int) : ScreenBuffer :=
  let rows := size.rows.toNat
  let hist :=
    if b.lines.length > rows ∧ historyLimit > 0 then b.hist ++ b.lines.take (b.lines.length - rows) else b.hist
  { lines := copyTo (new size).lines (b.lines.map (fit size.cols.toNat)), hist : ScreenBuffer }.trimHistory historyLimit

end ScreenBuffer

namespace Emulator

def new (size : Size) (historyLimit : Int) : Emulator :=
  let size := normalizeSize size
  { size, historyLimit := max historyLimit 0, main := .new size, alt := .new size, scrollBottom := size.rows - 1 }

def resize (e : Emulator) (size : Size) : Emulator :=
  let size := normalizeSize size
  { e with
    size
    main := e.main.resize size e.historyLimit
    alt := e.alt.resize size 0
    cursor := clampCursor e.cursor size
    savedCursor := clampCursor e.savedCursor size
    altSavedCursor := clampCursor e.altSavedCursor size
    scrollTop := 0
    scrollBottom := size.rows - 1 }

end Emulator

/-! ## Fewer rows -/

theorem copyTo_of_le {α : Type} {dst src : List α} (h : dst.length ≤ src.length) :
    copyTo dst src = src.take dst.length := by
  rw [copyTo, drop_eq_nil_of_le h, append_nil]

theorem length_fit (cols : Nat) (line : List Cell) : (fit cols line).length = cols := by
  simp only [fit, copyTo, blankLine, length_append, length_take, length_drop, length_replicate]
  omega

theorem fit_fit (cols : Nat) (line : List Cell) : fit cols (fit cols line) = fit cols line := by
  have hblank : (blankLine cols).length = cols := length_replicate
  have hlen := length_fit cols line
  rw [fit, copyTo_of_le (by omega), take_of_length_le (by omega)]

/-- After the history come the first rows, which are taken out, and the first rows, which are left. -/
theorem ScreenBuffer.resize_fewer (b : ScreenBuffer) {size : Size} {limit : Int}
    (hrows : size.rows.toNat < b.lines.length) (hlimit : b.hist.length + b.lines.length ≤ limit + size.rows.toNat) :
    (b.resize size limit).hist ++ (b.resize size limit).lines = b.hist ++
    (b.lines.take (b.lines.length - size.rows.toNat) ++
        (b.lines.take size.rows.toNat).map (fit size.cols.toNat)) := by
  have hpos : ¬ limit ≤ 0 := by omega
  have hmore : b.lines.length > size.rows.toNat ∧ limit > 0 := ⟨hrows, by omega⟩
  have hkept : b.hist.length + min (b.lines.length - size.rows.toNat) b.lines.length - limit.toNat = 0 := by omega
  have hnew : (new size).lines.length = size.rows.toNat := length_replicate
  have hscreen : (new size).lines.length ≤ (b.lines.map (fit size.cols.toNat)).length := by
    rw [hnew, length_map]
    exact Nat.le_of_lt hrows
  simp only [resize, trimHistory, if_neg hpos, if_pos hmore, copyTo_of_le hscreen, hnew, length_append,
    length_take, hkept, drop_zero, map_take, append_assoc]

namespace Emulator

/-- Each row of the main screen is once in the history or on the screen after a `Resize` to fewer rows, in its old
place, if and only if the last rows are the first ones. -/
theorem resize_partition_iff (e : Emulator) (size : Size) (hrows : (normalizeSize size).rows < e.main.lines.length)
    (hlimit : e.main.hist.length + e.main.lines.length ≤ e.historyLimit + (normalizeSize size).rows) :
    let rows := (normalizeSize size).rows.toNat
    let atWidth := List.map (fit (normalizeSize size).cols.toNat)
    let all := (e.resize size).main.hist ++ (e.resize size).main.lines
    (all.take e.main.hist.length = e.main.hist ∧ atWidth (all.drop e.main.hist.length) = atWidth e.main.lines) ↔
      atWidth (e.main.lines.take rows) = atWidth (e.main.lines.drop (e.main.lines.length - rows)) := by
  intro rows atWidth all
  have hpos : 0 < (normalizeSize size).rows := by
    simp only [normalizeSize]
    split <;> omega
  have hall : all = _ := ScreenBuffer.resize_fewer e.main (by omega) (by omega)
  have hfits (l : List (List Cell)) : atWidth (atWidth l) = atWidth l := by simp [atWidth, fit_fit]
  have hlines : atWidth e.main.lines = atWidth (e.main.lines.take (e.main.lines.length - rows)) ++
      atWidth (e.main.lines.drop (e.main.lines.length - rows)) := by
    rw [← map_append, take_append_drop]
  rw [hall, take_left, drop_left, and_iff_right rfl, hlines]
  simp only [atWidth, map_append, hfits]
  exact append_right_inj _

/-- Of the rows a, b, a, b two go to the history and two stay. -/
theorem resize_partition_repeated :
    let e := { new ⟨1, 4⟩ 10 with main.lines := [[{ r := 'a' }], [{ r := 'b' }], [{ r := 'a' }], [{ r := 'b' }]] }
    let all := (e.resize ⟨1, 2⟩).main.hist ++ (e.resize ⟨1, 2⟩).main.lines
    all.take 0 = [] ∧ (all.drop 0).map (fit 1) = e.main.lines.map (fit 1) :=
  (resize_partition_iff
    { new ⟨1, 4⟩ 10 with main.lines := [[{ r := 'a' }], [{ r := 'b' }], [{ r := 'a' }], [{ r := 'b' }]] } ⟨1, 2⟩
    (by decide) (by decide)).2 (by decide)

/-- Of the rows a and b, a is in the history and on the screen, and b is lost. -/
theorem resize_loses_row :
    let e := { new ⟨1, 2⟩ 10 with main.lines := [[{ r := 'a' }], [{ r := 'b' }]] }
    (e.resize ⟨1, 1⟩).main.hist = [[{ r := 'a' }]] ∧ (e.resize ⟨1, 1⟩).main.lines = [[{ r := 'a' }]] := by
  decide

end Emulator

end CrumbleCracker.Ptyterm
