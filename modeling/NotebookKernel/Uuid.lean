import NotebookKernel.Text.Hex

namespace NotebookKernel.Uuid

/-- Marks the bytes as random: of the 128 bits, six say so. -/
def mark (random : Vector UInt8 16) : Vector UInt8 16 :=
  (random.set 6 (random[6] &&& 0x0F ||| 0x40)).set 8 (random[8] &&& 0x3F ||| 0x80)

/-- The length of each group in bytes. -/
def groupSizes : List Nat := [4, 2, 2, 2, 6]

def groups : List Nat → List UInt8 → List (List UInt8)
  | [], _ => []
  | n :: sizes, bytes => bytes.take n :: groups sizes (bytes.drop n)

def text (random : Vector UInt8 16) : String :=
  String.ofList (['-'].intercalate ((groups groupSizes (mark random).toList).map Hex.encode))

end NotebookKernel.Uuid
