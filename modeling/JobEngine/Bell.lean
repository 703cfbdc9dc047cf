/-!
# Wake-up calls

Those who find the queue empty park in line. A ring wakes the one that has
waited longest; without anybody parked it is remembered once, and the next one
to park goes on at once. Who leaves after being woken, but before going on,
hands the ring to the next.
-/
namespace JobEngine

structure Bell (α : Type) where
  /-- A ring that nobody has heard yet. -/
  pending : Bool := false
  /-- Parked, the longest waiting first. -/
  parked : List α := []
  /-- Woken, and not gone on yet. -/
  woken : List α := []
deriving DecidableEq, Repr

namespace Bell

variable {α : Type} [DecidableEq α]

def ring (b : Bell α) : Bell α :=
  match b.parked with
  | [] => { b with pending := true }
  | a :: rest => { b with parked := rest, woken := b.woken ++ [a] }

/-- Whom the next ring wakes. -/
def next? (b : Bell α) : Option α := b.parked.head?

/-- Parks, unless a remembered ring lets the caller go on. -/
def park (b : Bell α) (a : α) : Bell α × Bool :=
  if b.pending then ({ b with pending := false }, false)
  else ({ b with parked := b.parked ++ [a] }, true)

/-- A woken one goes on. -/
def resume (b : Bell α) (a : α) : Bell α := { b with woken := b.woken.erase a }

/-- One that is parked or woken gives up. -/
def leave (b : Bell α) (a : α) : Bell α :=
  if a ∈ b.woken then (b.resume a).ring else { b with parked := b.parked.erase a }

end Bell

end JobEngine
