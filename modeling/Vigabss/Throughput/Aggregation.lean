import Mathlib.Data.List.Sort
import Vigabss.Lib.Binary64
import Vigabss.Lib.JsMap

/-!
# Vigabss.Throughput.Aggregation — bit rates from octet counters

`aggregateThroughput` of `throughputService.js`, in exact arithmetic: samples of cumulative counters
are grouped by interface and sorted by time, the rates between neighbours are averaged in each
bucket, and the averages of the interfaces are added up.
-/

namespace Vigabss.Throughput

open Vigabss.Lib

variable {ι : Type} [DecidableEq ι]

/-! ### Samples -/

/-- `{ iface, t, inO, outO }`; an `iface` of `none` is `null` or missing. -/
structure Sample (ι : Type) where
  iface : Option ι
  t : ℚ
  inO : ℚ
  outO : ℚ
  deriving DecidableEq, Repr

/-- `{ fromMs, toMs, buckets }`. -/
structure Opts where
  fromMs : ℚ
  toMs : ℚ
  buckets : ℚ

/-- `x | 0`. -/
def toInt32 (x : ℚ) : ℤ :=
  let whole := if x < 0 then ⌈x⌉ else ⌊x⌋
  (whole + 2 ^ 31) % 2 ^ 32 - 2 ^ 31

def Opts.nBuckets (o : Opts) : ℕ := (max 1 (toInt32 o.buckets)).toNat

def Opts.width (o : Opts) : ℚ :=
  if (o.toMs - o.fromMs) / o.nBuckets = 0 then 1 else (o.toMs - o.fromMs) / o.nBuckets

/-- The bucket of a time within the window. -/
def Opts.bucketOf (o : Opts) (t : ℚ) : ℕ :=
  min (o.nBuckets - 1) ⌊(t - o.fromMs) / o.width⌋.toNat

/-! ### Intervals -/

/-- What one interval adds to a bucket: the rates of the directions that did not go backwards. -/
structure Gain where
  bucket : ℕ
  inRate : Option ℚ
  outRate : Option ℚ
  deriving DecidableEq, Repr

/-- One pass of the inner loop, on two neighbours. -/
def interval (o : Opts) (a b : Sample ι) : Option Gain :=
  let dtSec := (b.t - a.t) / 1000
  if dtSec ≤ 0 then none
  else if b.t < o.fromMs ∨ o.toMs ≤ b.t then none
  else
    let dIn := b.inO - a.inO
    let dOut := b.outO - a.outO
    if dIn < 0 ∧ dOut < 0 then none
    else some
      { bucket := o.bucketOf b.t
        inRate := if 0 ≤ dIn then some (dIn * 8 / dtSec) else none
        outRate := if 0 ≤ dOut then some (dOut * 8 / dtSec) else none }

/-- `{ in, inN, out, outN }`. -/
structure Entry where
  inSum : ℚ
  inN : ℕ
  outSum : ℚ
  outN : ℕ
  deriving DecidableEq, Repr

/-- An entry with a gain. -/
def Entry.add (e : Entry) (g : Gain) : Entry where
  inSum := e.inSum + g.inRate.getD 0
  inN := e.inN + if g.inRate.isSome then 1 else 0
  outSum := e.outSum + g.outRate.getD 0
  outN := e.outN + if g.outRate.isSome then 1 else 0

/-- `perBucketIface` and `hasData`. -/
structure Tally (ι : Type) where
  perBucketIface : ℕ → JsMap ι Entry
  hasData : Bool

/-- A gain of an interface goes to its bucket. -/
def Tally.note (x : ι) (tally : Tally ι) (g : Gain) : Tally ι where
  perBucketIface := Function.update tally.perBucketIface g.bucket
    ((tally.perBucketIface g.bucket).set x
      ((((tally.perBucketIface g.bucket).get x).getD ⟨0, 0, 0, 0⟩).add g))
  hasData := tally.hasData || g.inRate.isSome || g.outRate.isSome

/-- Neighbours of a list. -/
def pairs {α : Type} (xs : List α) : List (α × α) := xs.zip xs.tail

/-- `arr.sort((a, b) => a.t - b.t)`, which is stable. -/
def sortByTime (arr : List (Sample ι)) : List (Sample ι) :=
  arr.insertionSort fun a b => a.t ≤ b.t

/-- The loop over the neighbours of one interface. -/
def tallyIface (o : Opts) (tally : Tally ι) (entry : ι × List (Sample ι)) : Tally ι :=
  (pairs (sortByTime entry.2)).foldl (fun tally p =>
    match interval o p.1 p.2 with
    | some g => tally.note entry.1 g
    | none => tally) tally

/-! ### Groups -/

/-- A sample joins the group of its interface; `none` is a sample that is `null`. -/
def join (byIface : JsMap ι (List (Sample ι))) : Option (Sample ι) → JsMap ι (List (Sample ι))
  | none => byIface
  | some s =>
    match s.iface with
    | none => byIface
    | some x => byIface.set x ((byIface.get x).getD [] ++ [s])

/-- The samples of each interface. -/
def groupByIface (samples : List (Option (Sample ι))) : JsMap ι (List (Sample ι)) :=
  samples.foldl join .empty

/-- `perBucketIface` and `hasData` at the end of the loops. -/
def tallyOf (samples : List (Option (Sample ι))) (o : Opts) : Tally ι :=
  (groupByIface samples).entries.foldl (tallyIface o) ⟨fun _ => .empty, false⟩

/-! ### Totals -/

/-- The average of one direction of an entry. -/
def average (sum : ℚ) (n : ℕ) : ℚ := if 0 < n then sum / n else 0

def inTotals (tally : Tally ι) (bi : ℕ) : ℚ :=
  (tally.perBucketIface bi).total fun _ e => average e.inSum e.inN

def outTotals (tally : Tally ι) (bi : ℕ) : ℚ :=
  (tally.perBucketIface bi).total fun _ e => average e.outSum e.outN

def inActive (tally : Tally ι) (bi : ℕ) : Bool :=
  (tally.perBucketIface bi).entries.any fun p => 0 < p.2.inN

/-- `{ ts, in_bps, out_bps }`, with the instant of `ts` in milliseconds. -/
structure Point where
  ts : ℚ
  in_bps : ℤ
  out_bps : ℤ
  deriving DecidableEq, Repr

/-- What is returned. -/
structure Series where
  points : List Point
  peak_bps : ℤ
  avg_bps : ℤ
  p95_bps : ℤ
  peak_gbps : ℚ
  avg_gbps : ℚ
  p95_gbps : ℚ
  has_data : Bool
  deriving DecidableEq, Repr

def toGbps (bps : ℚ) : ℚ := mathRound (bps / 10 ^ 9 * 100) / 100

/-- `Math.max(...values)`, of values that there are. -/
def peakOf (values : List ℚ) : ℚ := values.foldl max (values.headD 0)

def avgOf (values : List ℚ) : ℚ := if values = [] then 0 else values.sum / values.length

def p95Of (values : List ℚ) : ℚ :=
  let sorted := values.insertionSort (· ≤ ·)
  sorted.getD (min (sorted.length - 1) ⌊(sorted.length : ℚ) * (95 / 100)⌋.toNat) 0

/-- The points and the statistics of the totals. -/
def summary (o : Opts) (inTotal outTotal : ℕ → ℚ) (active : ℕ → Bool) (hasData : Bool) :
    Series :=
  let values := ((List.range o.nBuckets).filter active).map inTotal
  { points := (List.range o.nBuckets).map fun (bi : ℕ) =>
      { ts := o.fromMs + bi * o.width + o.width / 2
        in_bps := mathRound (inTotal bi)
        out_bps := mathRound (outTotal bi) }
    peak_bps := mathRound (peakOf values)
    avg_bps := mathRound (avgOf values)
    p95_bps := mathRound (p95Of values)
    peak_gbps := toGbps (peakOf values)
    avg_gbps := toGbps (avgOf values)
    p95_gbps := toGbps (p95Of values)
    has_data := hasData }

def aggregateThroughput (samples : List (Option (Sample ι))) (o : Opts) : Series :=
  let tally := tallyOf samples o
  summary o (inTotals tally) (outTotals tally) (inActive tally) tally.hasData

end Vigabss.Throughput
