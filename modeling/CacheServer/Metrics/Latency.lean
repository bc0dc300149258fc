/-!
# The latency histogram

Samples in seconds, counted by the first bound that is not below them, with their sum. A sample
above all bounds, or one that is no number, is in no bucket but counts all the same.
-/

namespace CacheServer

/-- The upper bounds of the buckets, in seconds. -/
def latencyBounds : Vector Float 10 :=
  #v[0.00001, 0.00005, 0.0001, 0.0005, 0.001, 0.005, 0.01, 0.05, 0.1, 0.5]

/-- A histogram of latencies. -/
structure Latency where
  /-- The samples whose first bound is that of the bucket. -/
  buckets : Vector UInt64 10
  sum : Float
  count : UInt64

namespace Latency

/-- A histogram without samples. -/
def empty : Latency := ⟨Vector.replicate 10 0, 0.0, 0⟩

/-- Adds one sample. -/
def observe (l : Latency) (sample : Float) : Latency where
  buckets :=
    match latencyBounds.findFinIdx? (sample ≤ ·) with
    | some i => l.buckets.set i (l.buckets[i] + 1)
    | none => l.buckets
  sum := l.sum + sample
  count := l.count + 1

/-- For each bucket, the number of samples that do not exceed its bound. -/
def cumulative (l : Latency) : List UInt64 :=
  (l.buckets.toList.foldl (fun (total, counts) n => (total + n, (total + n) :: counts))
    ((0 : UInt64), ([] : List UInt64))).2.reverse

end Latency

end CacheServer
