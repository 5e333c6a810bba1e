import StartupLatency.Text
import StartupLatency.Text.WidthTable
/-!
How many cells a text takes on a terminal. Control characters take one like any other, because
the count is of what is written, not of what a terminal makes of it.
-/

namespace StartupLatency.Text

def inRanges (ranges : List (Nat × Nat)) (n : Nat) : Bool :=
  ranges.any fun range => range.1 ≤ n && n ≤ range.2

def charWidth (c : Char) : Nat :=
  let n := c.toNat
  if n < 0xAD then 1
  else if inRanges emptyRanges n then 0
  else if inRanges wideRanges n then 2
  else 1

def lineWidth (line : List Char) : Nat := line.foldl (fun cells c => cells + charWidth c) 0

def width (cs : List Char) : Nat :=
  (splitOn '\n' cs).foldl (fun most line => max most (lineWidth line)) 0

def padTo (cells : Nat) (line : List Char) : List Char :=
  line ++ List.replicate (cells - lineWidth line) ' '

end StartupLatency.Text
