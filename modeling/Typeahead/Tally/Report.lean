import Typeahead.Json.Write
import Typeahead.Tally
import Typeahead.Text.Decimal

/-!
# Tallies as JSON

All counts, and for the two operations of an editor the figures of their durations, or null. When
there are no figures because a sum does not fit, the whole report fails.
-/

namespace Typeahead

open Json

/-- The figures of a window. -/
def Durations.json (d : Durations) : String :=
  let word (n : UInt64) := Write.nat n.toNat
  Write.object [("count", Write.nat d.count), ("min_micros", word d.least),
    ("max_micros", word d.greatest), ("mean_micros", word d.mean), ("p50_micros", word d.median),
    ("p95_micros", word d.percentile95)]

/-- All counts and figures; durations that come to too much leave nothing to show. -/
def Tally.json (t : Tally) : Except Overflow String := do
  let parse ← t.durations "parse"
  let fetch ← t.durations "fetch"
  return Write.object [("parse_cache_hits", Write.nat t.recalled.hits),
    ("parse_cache_misses", Write.nat t.recalled.misses),
    ("parse_cache_hit_rate", Text.decimal t.recalled.rate),
    ("syntax_errors", Write.nat t.faulty), ("fetches_dispatched", Write.nat t.asked),
    ("fetches_applied", Write.nat t.applied), ("fetches_discarded", Write.nat t.discarded),
    ("fetches_failed", Write.nat t.failed), ("selections", Write.nat t.selected),
    ("parse", Write.option Durations.json parse), ("fetch", Write.option Durations.json fetch)]

end Typeahead
