import Mathlib

/-!
# The pictures of a video

The screens of a console are put together into one picture, according to a layout.  Its size is that
of `outputGeometry`, whatever the screens hold (`length_compositeScreens`).
-/

set_option autoImplicit false

namespace SuperShuckie

namespace VideoExport

/-- A screen, its pixels row by row. -/
structure ScreenData where
  pixels : List UInt32
  width : Nat
  height : Nat
deriving DecidableEq

/-- How to lay out the screens of a console that has several. -/
inductive ScreenLayout
  /-- Top screen above the bottom screen. -/
  | verticalStack
  /-- Top screen left of the bottom screen. -/
  | horizontalStack
  | topOnly
  | bottomOnly
deriving DecidableEq

/-- Width and height of the output; `none` if there are no screens. -/
def outputGeometry (screens : List ScreenData) (layout : ScreenLayout) :
    Option (UInt32 × UInt32) :=
  match screens with
  | [] => none
  | [only] => some (only.width.toUInt32, only.height.toUInt32)
  | a :: b :: _ =>
    let (aw, ah) := (a.width.toUInt32, a.height.toUInt32)
    let (bw, bh) := (b.width.toUInt32, b.height.toUInt32)
    match layout with
    | .verticalStack => some (max aw bw, ah + bh)
    | .horizontalStack => some (aw + bw, max ah bh)
    | .topOnly => some (aw, ah)
    | .bottomOnly => some (bw, bh)

/-- Copy rows of a screen, from row `row` on, `left` of which are still to come.  A row that is not
there, or that has no room, ends it. -/
def blitRows (outWidth : Nat) (src : ScreenData) (dstX dstY : Nat) :
    Nat → Nat → List UInt32 → List UInt32
  | 0, _, out => out
  | left + 1, row, out =>
    let srcRow := (src.pixels.drop (row * src.width)).take src.width
    let dstStart := (dstY + row) * outWidth + dstX
    if srcRow.length = src.width ∧ dstStart + src.width ≤ out.length then
      blitRows outWidth src dstX dstY left (row + 1)
        (out.take dstStart ++ srcRow ++ out.drop (dstStart + src.width))
    else out

/-- Copy a screen to a place of the picture. -/
def blit (outWidth : Nat) (src : ScreenData) (dstX dstY : Nat) (out : List UInt32) : List UInt32 :=
  blitRows outWidth src dstX dstY src.height 0 out

/-- Opaque black. -/
def black : UInt32 := 0xFF000000

/-- Put the screens together; what they leave free is black. -/
def compositeScreens (screens : List ScreenData) (layout : ScreenLayout) : List UInt32 :=
  match outputGeometry screens layout with
  | none => []
  | some (width, height) =>
    let out := .replicate (width.toNat * height.toNat) black
    match screens, layout with
    | [], _ => out
    | [only], _ => blit width.toNat only 0 0 out
    | a :: b :: _, .verticalStack =>
      blit width.toNat b 0 a.height (blit width.toNat a 0 0 out)
    | a :: b :: _, .horizontalStack =>
      blit width.toNat b a.width 0 (blit width.toNat a 0 0 out)
    | a :: _ :: _, .topOnly => blit width.toNat a 0 0 out
    | _ :: b :: _, .bottomOnly => blit width.toNat b 0 0 out

/-! ## Sizes -/

theorem length_blitRows (outWidth : Nat) (src : ScreenData) (dstX dstY left row : Nat)
    (out : List UInt32) :
    (blitRows outWidth src dstX dstY left row out).length = out.length := by
  induction left generalizing row out with
  | zero => rfl
  | succ left ih =>
    rw [blitRows]
    split_ifs with hroom
    · rw [ih, List.length_append, List.length_append, List.length_take, List.length_drop, hroom.1]
      omega
    · rfl

theorem length_blit (outWidth : Nat) (src : ScreenData) (dstX dstY : Nat) (out : List UInt32) :
    (blit outWidth src dstX dstY out).length = out.length :=
  length_blitRows outWidth src dstX dstY src.height 0 out

/-- **A picture has the size of its geometry.** -/
theorem length_compositeScreens {screens : List ScreenData} {layout : ScreenLayout}
    {width height : UInt32} (h : outputGeometry screens layout = some (width, height)) :
    (compositeScreens screens layout).length = width.toNat * height.toNat := by
  rw [compositeScreens, h]
  dsimp only
  split <;> simp only [length_blit, List.length_replicate]

/-- The size of a screen. -/
def ScreenData.size (screen : ScreenData) : Nat × Nat := (screen.width, screen.height)

/-- The geometry depends on the sizes of the screens only. -/
theorem outputGeometry_congr {screens screens' : List ScreenData} (layout : ScreenLayout)
    (h : screens.map ScreenData.size = screens'.map ScreenData.size) :
    outputGeometry screens layout = outputGeometry screens' layout := by
  have hsame {a b : ScreenData} (hab : a.size = b.size) : a.width = b.width ∧ a.height = b.height :=
    Prod.mk.inj hab
  match screens, screens' with
  | [], [] => rfl
  | [a], [b] =>
    obtain ⟨hw, hh⟩ := hsame (List.cons.inj h).1
    rw [outputGeometry, outputGeometry, hw, hh]
  | a :: a' :: _, b :: b' :: _ =>
    obtain ⟨hw, hh⟩ := hsame (List.cons.inj h).1
    obtain ⟨hw', hh'⟩ := hsame (List.cons.inj (List.cons.inj h).2).1
    simp only [outputGeometry, hw, hh, hw', hh']
  | [], _ :: _ => cases h
  | _ :: _, [] => cases h
  | [_], _ :: _ :: _ => cases (List.cons.inj h).2
  | _ :: _ :: _, [_] => cases (List.cons.inj h).2

end VideoExport

end SuperShuckie
