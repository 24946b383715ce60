import StackCalc.Text.Ranges
import StackCalc.Text.WideRanges
import StackCalc.Text.ZeroRanges

/-! The width of text in a terminal, in cells. Most characters take one cell, some take two, and
some none. Two characters act on their neighbours: a joiner hides the character behind it, and a
selector turns the character before it into a pictograph, which takes one cell more if that
character has such a form and is narrow without it. -/
namespace StackCalc.Text

/-- The narrow characters that have a form as a pictograph, as code points in increasing order. -/
def selectableRanges : List (Nat × Nat) := [
  (0x23, 0x23), (0x2A, 0x2A), (0x30, 0x39), (0xA9, 0xA9), (0xAE, 0xAE), (0x203C, 0x203C),
  (0x2049, 0x2049), (0x2122, 0x2122), (0x2139, 0x2139), (0x2194, 0x2199), (0x21A9, 0x21AA),
  (0x2328, 0x2328), (0x23CF, 0x23CF), (0x23ED, 0x23EF), (0x23F1, 0x23F2), (0x23F8, 0x23FA),
  (0x24C2, 0x24C2), (0x25AA, 0x25AB), (0x25B6, 0x25B6), (0x25C0, 0x25C0), (0x25FB, 0x25FC),
  (0x2600, 0x2604), (0x260E, 0x260E), (0x2611, 0x2611), (0x2618, 0x2618), (0x261D, 0x261D),
  (0x2620, 0x2620), (0x2622, 0x2623), (0x2626, 0x2626), (0x262A, 0x262A), (0x262E, 0x262F),
  (0x2638, 0x263A), (0x2640, 0x2640), (0x2642, 0x2642), (0x265F, 0x2660), (0x2663, 0x2663),
  (0x2665, 0x2666), (0x2668, 0x2668), (0x267B, 0x267B), (0x267E, 0x267E), (0x2692, 0x2692),
  (0x2694, 0x2697), (0x2699, 0x2699), (0x269B, 0x269C), (0x26A0, 0x26A0), (0x26A7, 0x26A7),
  (0x26B0, 0x26B1), (0x26C8, 0x26C8), (0x26CF, 0x26CF), (0x26D1, 0x26D1), (0x26D3, 0x26D3),
  (0x26E9, 0x26E9), (0x26F0, 0x26F1), (0x26F4, 0x26F4), (0x26F7, 0x26F9), (0x2702, 0x2702),
  (0x2708, 0x2709), (0x270C, 0x270D), (0x270F, 0x270F), (0x2712, 0x2712), (0x2714, 0x2714),
  (0x2716, 0x2716), (0x271D, 0x271D), (0x2721, 0x2721), (0x2733, 0x2734), (0x2744, 0x2744),
  (0x2747, 0x2747), (0x2763, 0x2764), (0x27A1, 0x27A1), (0x2934, 0x2935), (0x2B05, 0x2B07),
  (0x1F170, 0x1F171), (0x1F17E, 0x1F17F), (0x1F321, 0x1F321), (0x1F324, 0x1F32C),
  (0x1F336, 0x1F336), (0x1F37D, 0x1F37D), (0x1F396, 0x1F397), (0x1F399, 0x1F39B),
  (0x1F39E, 0x1F39F), (0x1F3CB, 0x1F3CE), (0x1F3D4, 0x1F3DF), (0x1F3F3, 0x1F3F3),
  (0x1F3F5, 0x1F3F5), (0x1F3F7, 0x1F3F7), (0x1F43F, 0x1F43F), (0x1F441, 0x1F441),
  (0x1F4FD, 0x1F4FD), (0x1F549, 0x1F54A), (0x1F56F, 0x1F570), (0x1F573, 0x1F579),
  (0x1F587, 0x1F587), (0x1F58A, 0x1F58D), (0x1F590, 0x1F590), (0x1F5A5, 0x1F5A5),
  (0x1F5A8, 0x1F5A8), (0x1F5B1, 0x1F5B2), (0x1F5BC, 0x1F5BC), (0x1F5C2, 0x1F5C4),
  (0x1F5D1, 0x1F5D3), (0x1F5DC, 0x1F5DE), (0x1F5E1, 0x1F5E1), (0x1F5E3, 0x1F5E3),
  (0x1F5E8, 0x1F5E8), (0x1F5EF, 0x1F5EF), (0x1F5F3, 0x1F5F3), (0x1F5FA, 0x1F5FA),
  (0x1F6CB, 0x1F6CB), (0x1F6CD, 0x1F6CF), (0x1F6E0, 0x1F6E5), (0x1F6E9, 0x1F6E9),
  (0x1F6F0, 0x1F6F0), (0x1F6F3, 0x1F6F3)
]

/-- The character that joins its neighbours. -/
def joiner : Char := '\u200D'

/-- The character that asks for the form as a pictograph. -/
def selector : Char := '\uFE0F'

def charWidth (c : Char) : Nat :=
  if inRanges zeroRanges c then 0 else if inRanges wideRanges c then 2 else 1

/-- How many cells the rest of a text takes. `last` is the last character that took a cell, unless a
selector has already acted on it. -/
def widthFrom (last : Option Char) : List Char → Nat
  | [] => 0
  | [c] =>
    if c = joiner then 0
    else if c = selector then (if last.any (inRanges selectableRanges) then 1 else 0)
    else charWidth c
  | c :: d :: rest =>
    if c = joiner then widthFrom last rest
    else if c = selector then
      (if last.any (inRanges selectableRanges) then 1 else 0) + widthFrom none (d :: rest)
    else if charWidth c = 0 then widthFrom last (d :: rest)
    else charWidth c + widthFrom (some c) (d :: rest)

def width (cs : List Char) : Nat :=
  widthFrom none cs

/-- Characters that are shown together, and the cells they take. -/
structure Cluster where
  chars : List Char
  width : Nat
deriving DecidableEq, Repr

/-- Takes up characters that take no cells of their own. -/
def Cluster.extend (k : Cluster) (cs : List Char) (more : Nat) : Cluster :=
  ⟨k.chars ++ cs, k.width + more⟩

def clustersFrom (k : Cluster) (last : Option Char) : List Char → List Cluster
  | [] => [k]
  | [c] =>
    if c = joiner then [k.extend [c] 0]
    else if c = selector then
      [k.extend [c] (if last.any (inRanges selectableRanges) then 1 else 0)]
    else if charWidth c = 0 then [k.extend [c] 0]
    else [k, ⟨[c], charWidth c⟩]
  | c :: d :: rest =>
    if c = joiner then clustersFrom (k.extend [c, d] 0) last rest
    else if c = selector then
      if last.any (inRanges selectableRanges) then clustersFrom (k.extend [c] 1) none (d :: rest)
      else clustersFrom (k.extend [c] 0) last (d :: rest)
    else if charWidth c = 0 then clustersFrom (k.extend [c] 0) last (d :: rest)
    else k :: clustersFrom ⟨[c], charWidth c⟩ (some c) (d :: rest)

def clusters : List Char → List Cluster
  | [] => []
  | c :: rest => clustersFrom ⟨[c], charWidth c⟩ (if charWidth c = 0 then none else some c) rest

/-- As many clusters as fill a number of cells. A space stands for the first half of a cluster that
would go beyond it. -/
def fill (cells : Nat) : List Cluster → List Char
  | [] => []
  | k :: rest =>
    if cells = 0 then []
    else if k.width ≤ cells then k.chars ++ fill (cells - k.width) rest
    else [' ']

/-- A text brought to a number of cells: cut off, or with spaces behind it. -/
def resized (cells : Nat) (cs : List Char) : List Char :=
  if width cs ≤ cells then cs ++ List.replicate (cells - width cs) ' ' else fill cells (clusters cs)

end StackCalc.Text
