import NotebookKernel.Digest.Hmac

namespace NotebookKernel

namespace Sha256

/-- What stands behind the last whole block. -/
def begun (bytes : List UInt8) : List UInt8 := bytes.drop (64 * (bytes.length / 64))

theorem length_begun (bytes : List UInt8) : (begun bytes).length < 64 := by
  rw [begun, List.length_drop]
  omega

/-- Whole blocks are compressed as they come in; what is left of the last one waits for the next piece. -/
@[ext]
structure Running where
  state : State
  /-- How many bytes have come in. -/
  length : Nat
  pending : List UInt8
  pending_lt : pending.length < 64

namespace Running

def start : Running := ⟨.start, 0, [], by decide⟩

def update (r : Running) (piece : List UInt8) : Running :=
  { state := absorb r.state (r.pending ++ piece)
    length := r.length + piece.length
    pending := begun (r.pending ++ piece)
    pending_lt := length_begun _ }

variable (r : Running) (piece : List UInt8)

@[simp] theorem update_state : (r.update piece).state = absorb r.state (r.pending ++ piece) := rfl

@[simp] theorem update_length : (r.update piece).length = r.length + piece.length := rfl

@[simp] theorem update_pending : (r.update piece).pending = begun (r.pending ++ piece) := rfl

def finish (r : Running) : Digest :=
  digestOfWords (r.update (padding r.length)).state.words

end Running

end Sha256

namespace Hmac

/-- The outer digest waits for the inner one. -/
structure Running where
  inner : Sha256.Running
  outer : Sha256.Running

namespace Running

def keyed (key : List UInt8) : Running :=
  ⟨Sha256.Running.start.update (masked key 0x36), Sha256.Running.start.update (masked key 0x5c)⟩

def update (r : Running) (piece : List UInt8) : Running :=
  { r with inner := r.inner.update piece }

def finish (r : Running) : Sha256.Digest :=
  (r.outer.update r.inner.finish.toList).finish

end Running

end Hmac

end NotebookKernel
