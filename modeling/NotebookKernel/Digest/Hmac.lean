import NotebookKernel.Digest.Sha256

namespace NotebookKernel.Hmac

def blockSize : Nat := 64

/-- A key longer than a block is hashed first; zeros fill the block. -/
def blockKey (key : List UInt8) : List UInt8 :=
  let short := if blockSize < key.length then (Sha256.hash key).toList else key
  short ++ List.replicate (blockSize - short.length) 0

def masked (key : List UInt8) (mask : UInt8) : List UInt8 := (blockKey key).map (· ^^^ mask)

def digest (key message : List UInt8) : Sha256.Digest :=
  Sha256.hash (masked key 0x5c ++ (Sha256.hash (masked key 0x36 ++ message)).toList)

end NotebookKernel.Hmac
