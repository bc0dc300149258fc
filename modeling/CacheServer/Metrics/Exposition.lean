import CacheServer.Metrics.Basic
import CacheServer.Text.Decimal

/-!
# The metrics text

The counters in the text format that scrapers read: families in the order of their names, each
with its help, its type and its samples. Values are written as double-precision numbers, so a
count beyond 2^53 is rounded. The buckets of the histogram are cumulative, and the last one, which
has no bound, counts all samples.
-/

namespace CacheServer

/-- What a family of samples measures. -/
inductive Measure
  | counter (value : UInt64)
  | gauge (value : Int64)
  | histogram (latency : Latency)

/-- A named measure. -/
structure Family where
  name : String
  help : String
  measure : Measure

namespace Family

/-- The word for the type of a measure. -/
def typeName : Measure → String
  | .counter _ => "counter"
  | .gauge _ => "gauge"
  | .histogram _ => "histogram"

/-- One sample: the name, perhaps with labels, and the value. -/
def sampleLine (name : String) (value : Float) : String :=
  name ++ " " ++ Text.Decimal.numeral value

/-- The name of a bucket with an upper bound. -/
def bucketName (name bound : String) : String :=
  name ++ "_bucket\x7ble=\"" ++ bound ++ "\"\x7d"

/-- The bounds of the buckets as they are written. -/
def boundNames : List String := latencyBounds.toList.map Text.Decimal.numeral

/-- The samples of a histogram. -/
def histogramLines (name : String) (l : Latency) : List String :=
  (boundNames.zip l.cumulative).map (fun (bound, count) =>
    sampleLine (bucketName name bound) count.toFloat) ++
  [sampleLine (bucketName name "+Inf") l.count.toFloat,
    sampleLine (name ++ "_sum") l.sum,
    sampleLine (name ++ "_count") l.count.toFloat]

/-- The samples of a family. -/
def samples (f : Family) : List String :=
  match f.measure with
  | .counter value => [sampleLine f.name value.toFloat]
  | .gauge value => [sampleLine f.name value.toFloat]
  | .histogram latency => histogramLines f.name latency

/-- The lines of a family. -/
def lines (f : Family) : List String :=
  ("# HELP " ++ f.name ++ " " ++ f.help) :: ("# TYPE " ++ f.name ++ " " ++ typeName f.measure) ::
    f.samples

end Family

namespace Metrics

/-- The counter of a verb. -/
def commandFamily (m : Metrics) (v : Verb) (name : String) : Family :=
  ⟨"rcs_cmd_" ++ name ++ "_total", "Total " ++ v.token ++ " commands", .counter (m.commandCount v)⟩

/-- All families, in the order of their names. -/
def families (m : Metrics) : List Family :=
  [⟨"rcs_active_connections", "Current active connections", .gauge m.activeConnections⟩,
    ⟨"rcs_bytes_read_total", "Total bytes read", .counter m.bytesRead⟩,
    ⟨"rcs_bytes_written_total", "Total bytes written", .counter m.bytesWritten⟩,
    m.commandFamily .close "close",
    m.commandFamily .delete "delete",
    m.commandFamily .get "get",
    m.commandFamily .keys "keys",
    ⟨"rcs_cmd_latency_seconds", "Command latency in seconds", .histogram m.latency⟩,
    m.commandFamily .length "length",
    m.commandFamily .ping "ping",
    m.commandFamily .purge "purge",
    m.commandFamily .set "set",
    ⟨"rcs_connections_total", "Total connections accepted", .counter m.totalConnections⟩,
    ⟨"rcs_expired_keys_removed_total", "Keys removed by the background expiry sweep",
      .counter m.expiredRemoved⟩,
    ⟨"rcs_get_hits_total", "Total GET hits", .counter m.getHits⟩,
    ⟨"rcs_get_misses_total", "Total GET misses", .counter m.getMisses⟩,
    ⟨"rcs_invalid_commands_total", "Total requests naming an unknown verb",
      .counter m.invalidCommands⟩,
    ⟨"rcs_protocol_errors_total", "Total protocol errors", .counter m.protocolErrors⟩]

/-- The metrics text. Every line has a line feed behind it. -/
def exposition (m : Metrics) : String :=
  String.join ((m.families.flatMap Family.lines).map (· ++ "\n"))

end Metrics

end CacheServer
