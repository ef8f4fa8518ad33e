import NotebookKernel.Text.Printable

namespace NotebookKernel.Quoted

def hex (n : Nat) : List Char := Nat.toDigits 16 n

/-- At least `width` digits. -/
def paddedHex (width n : Nat) : List Char :=
  let ds := hex n
  List.replicate (width - ds.length) '0' ++ ds

/-- Between double quotes; code points stand between braces. -/
def bracedChar (c : Char) : List Char :=
  if c = '"' then ['\\', '"']
  else if c = '\\' then ['\\', '\\']
  else if c = '\n' then ['\\', 'n']
  else if c = '\r' then ['\\', 'r']
  else if c = '\t' then ['\\', 't']
  else if c = '\x00' then ['\\', '0']
  else if CodePoint.isHidden .seventeenth c.toNat || CodePoint.isExtending c.toNat
      || CodePoint.isFiller c.toNat then
    ['\\', 'u', '\x7b'] ++ hex c.toNat ++ ['\x7d']
  else [c]

def braced (s : List Char) : List Char := '"' :: (s.flatMap bracedChar ++ ['"'])

/-- Code points as they stand in a text of code points. -/
def points (cs : List Char) : List Nat := cs.map Char.toNat

/-- One code point in a literal between the given quotes; the width of an escape grows with the code
point. -/
def literalPoint (mark : Char) (n : Nat) : List Nat :=
  if n = mark.toNat ∨ n = '\\'.toNat then points ['\\', Char.ofNat n]
  else if n = '\n'.toNat then points ['\\', 'n']
  else if n = '\r'.toNat then points ['\\', 'r']
  else if n = '\t'.toNat then points ['\\', 't']
  else if !CodePoint.isHidden .fourteenth n then [n]
  else if n < 0x100 then points ('\\' :: 'x' :: paddedHex 2 n)
  else if n < 0x10000 then points ('\\' :: 'u' :: paddedHex 4 n)
  else points ('\\' :: 'U' :: paddedHex 8 n)

/-- Single quotes, unless they are in the text and double quotes are not. -/
def literalMark (s : List Nat) : Char :=
  if s.contains '\''.toNat && !s.contains '"'.toNat then '"' else '\''

def literal (s : List Nat) : List Nat :=
  let mark := literalMark s
  mark.toNat :: (s.flatMap (literalPoint mark) ++ [mark.toNat])

end NotebookKernel.Quoted
