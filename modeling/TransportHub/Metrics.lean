/-!
Dispatch metrics: six counters shared by all lanes. They count the callbacks that some lane accepted,
the listener invocations that returned and those that panicked, the data callbacks drained by the lane
of another connection, the accepted callbacks thrown away at termination, and the data callbacks that no
lane accepted. They count without bound; a reading shows each modulo 2^64.
-/
namespace TransportHub

structure Metrics where
  enqueued : Nat := 0
  delivered : Nat := 0
  panics : Nat := 0
  mismatches : Nat := 0
  discarded : Nat := 0
  orphaned : Nat := 0
deriving DecidableEq, Repr

namespace Metrics

def reading (m : Metrics) : List UInt64 :=
  [m.enqueued, m.delivered, m.panics, m.mismatches, m.discarded, m.orphaned].map Nat.toUInt64

def countDelivery (m : Metrics) (listeners panics : Nat) : Metrics :=
  { m with delivered := m.delivered + (listeners - panics), panics := m.panics + panics }

end Metrics
end TransportHub
