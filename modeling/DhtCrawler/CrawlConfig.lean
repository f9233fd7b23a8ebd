import Mathlib.Data.Rat.Floor
import DhtCrawler.BaseTypes

/-! The crawl options of `types.rs`, their resolution in `crawl_config.rs` and the size of the recent-probe set.
-/

namespace DhtCrawler

structure RateLimitOptions where
  maxFindNodeRatePerSec : UInt32
  burst : UInt32
  maxInFlight : UInt64
  requestTimeoutSecs : UInt64
  maxNewDestinationsPerMinute : UInt32
  metadataPressureFloorPercent : UInt8
  maxReplacementsPerMinute : UInt32
  maxInFlightPerSubnet : UInt64

structure PoolOptions where
  capacity : UInt64
  recentProbeTtlSecs : UInt64
  responsiveCapacity : UInt64
  responsiveTtlSecs : UInt64
  revisitIntervalSecs : UInt64
  lowWatermark : UInt64

structure BootstrapOptions where
  nodes : List String
  intervalSecs : UInt64
  maxNodesPerRound : UInt64
  sourceBackoffBaseSecs : UInt64
  sourceBackoffMaxSecs : UInt64

structure TargetOptions where
  randomWalkPercent : UInt8
  sparseBucketPercent : UInt8

structure CrawlOptions where
  pool : PoolOptions
  rateLimit : RateLimitOptions
  bootstrap : BootstrapOptions
  target : TargetOptions
  routingSnapshotSize : UInt64

def defaultBootstrapNodes : List String :=
  ["router.bittorrent.com:6881", "dht.transmissionbt.com:6881", "router.utorrent.com:6881",
    "dht.aelitis.com:6881"]

structure ResolvedCrawlConfig where
  maxFindNodeRatePerSec : ℕ
  burst : ℕ
  maxInFlight : ℕ
  requestTimeout : Duration
  maxNewDestinationsPerMinute : ℕ
  metadataPressureFloorPercent : ℕ
  poolCapacity : ℕ
  maxReplacementsPerMinute : ℕ
  recentProbeTtl : Duration
  responsiveCapacity : ℕ
  responsiveTtl : Duration
  revisitInterval : Duration
  lowWatermark : ℕ
  maxInFlightPerSubnet : ℕ
  bootstrapNodes : List String
  bootstrapInterval : Duration
  bootstrapMaxNodesPerRound : ℕ
  bootstrapBackoffBase : Duration
  bootstrapBackoffMax : Duration
  randomWalkPercent : ℕ
  sparseBucketPercent : ℕ
  routingSnapshotSize : ℕ

namespace ResolvedCrawlConfig

def fromOptions (options : CrawlOptions) : ResolvedCrawlConfig :=
  let capacity := max options.pool.capacity.toNat 1
  { maxFindNodeRatePerSec := options.rateLimit.maxFindNodeRatePerSec.toNat
    burst :=
      if options.rateLimit.maxFindNodeRatePerSec.toNat = 0 then 0
      else max options.rateLimit.burst.toNat 1
    maxInFlight := max options.rateLimit.maxInFlight.toNat 1
    requestTimeout := secs (max options.rateLimit.requestTimeoutSecs.toNat 1)
    maxNewDestinationsPerMinute := options.rateLimit.maxNewDestinationsPerMinute.toNat
    metadataPressureFloorPercent := min options.rateLimit.metadataPressureFloorPercent.toNat 100
    poolCapacity := capacity
    maxReplacementsPerMinute := options.rateLimit.maxReplacementsPerMinute.toNat
    recentProbeTtl := secs (max options.pool.recentProbeTtlSecs.toNat 1)
    responsiveCapacity := max options.pool.responsiveCapacity.toNat 1
    responsiveTtl := secs (max options.pool.responsiveTtlSecs.toNat 1)
    revisitInterval := secs options.pool.revisitIntervalSecs.toNat
    lowWatermark := min options.pool.lowWatermark.toNat capacity
    maxInFlightPerSubnet := max options.rateLimit.maxInFlightPerSubnet.toNat 1
    bootstrapNodes :=
      if options.bootstrap.nodes.isEmpty then defaultBootstrapNodes else options.bootstrap.nodes
    bootstrapInterval := secs options.bootstrap.intervalSecs.toNat
    bootstrapMaxNodesPerRound := options.bootstrap.maxNodesPerRound.toNat
    bootstrapBackoffBase := secs (max options.bootstrap.sourceBackoffBaseSecs.toNat 1)
    bootstrapBackoffMax := secs (max options.bootstrap.sourceBackoffMaxSecs.toNat 1)
    randomWalkPercent := min options.target.randomWalkPercent.toNat 100
    sparseBucketPercent := min options.target.sparseBucketPercent.toNat 100
    routingSnapshotSize := max options.routingSnapshotSize.toNat 1 }

def roundNat (x : ℚ) : ℕ := ⌊x + 1 / 2⌋₊

/-- The query rate falls linearly while the metadata queue fills from four fifths to nineteen twentieths. -/
def rateForMetadataPressure (config : ResolvedCrawlConfig) (pressure : ℚ) : ℕ :=
  let top : ℚ := config.maxFindNodeRatePerSec
  if pressure < 4 / 5 then config.maxFindNodeRatePerSec
  else
    let floor := top * config.metadataPressureFloorPercent / 100
    if pressure ≥ 19 / 20 then roundNat floor
    else
      let progress := max 0 (min ((pressure - 4 / 5) / (3 / 20)) 1)
      roundNat (top - (top - floor) * progress)

def bootstrapEnabled (config : ResolvedCrawlConfig) : Bool :=
  config.bootstrapMaxNodesPerRound > 0 && config.lowWatermark > 0

/-- The number of requests the query budget allows within the lifetime of a recent probe. -/
def queryWindow (config : ResolvedCrawlConfig) : ℕ :=
  config.maxFindNodeRatePerSec * asSecs config.recentProbeTtl + config.burst

def destinationWindow (config : ResolvedCrawlConfig) : ℕ :=
  divCeil (config.maxNewDestinationsPerMinute * asSecs config.recentProbeTtl) 60 +
    divCeil config.maxNewDestinationsPerMinute 60

/-- New destinations, and the endpoints that answered or were asked before the window opened. -/
def residentWindow (config : ResolvedCrawlConfig) : ℕ :=
  config.destinationWindow + config.responsiveCapacity + config.maxInFlight

/-- The products of the source are taken in 128 bits, where these operands cannot saturate. -/
def recentProbeCapacity (config : ResolvedCrawlConfig) : ℕ :=
  let capacity :=
    if config.bootstrapEnabled then config.queryWindow
    else min config.queryWindow config.residentWindow
  min (max capacity 1) usizeMax

end ResolvedCrawlConfig

end DhtCrawler
