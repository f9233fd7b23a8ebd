import Mathlib.Data.Rat.Floor
import DhtCrawler.BaseTypes

/-! The token bucket of `budget.rs`, with exact rational token counts in the place of floating point. -/

namespace DhtCrawler

@[ext]
structure RateBucket where
  ratePerSec : ℚ
  capacity : ℚ
  tokens : ℚ
  lastRefill : Instant

/-- The seconds from one instant to the next, zero if there is none. -/
def elapsedSecs (earlier now : Instant) : ℚ := ((now - earlier : ℕ) : ℚ) / 1000000000

namespace RateBucket

def new (ratePerSec capacity : ℚ) (initiallyFull : Bool) (now : Instant) : RateBucket :=
  let capacity := if ratePerSec ≤ 0 then 0 else max capacity 1
  { ratePerSec
    capacity
    tokens := if initiallyFull then capacity else 0
    lastRefill := now }

def perSecond (ratePerSec burst : ℕ) (initiallyFull : Bool) (now : Instant) : RateBucket :=
  new ratePerSec burst initiallyFull now

def perMinute (ratePerMinute burst : ℕ) (initiallyFull : Bool) (now : Instant) : RateBucket :=
  new (ratePerMinute / 60) burst initiallyFull now

def refill (b : RateBucket) (now : Instant) : RateBucket :=
  let elapsed := elapsedSecs b.lastRefill now
  if elapsed > 0 then
    { b with tokens := min (b.tokens + elapsed * b.ratePerSec) b.capacity, lastRefill := now }
  else b

def setPerSecondRate (b : RateBucket) (ratePerSec : ℕ) (now : Instant) : RateBucket :=
  let b := { b.refill now with ratePerSec := (ratePerSec : ℚ) }
  if b.ratePerSec ≤ 0 then { b with tokens := 0 } else { b with tokens := min b.tokens b.capacity }

def tryTakeExact (b : RateBucket) (count : ℕ) (now : Instant) : RateBucket × Bool :=
  if count = 0 then (b, true)
  else if b.ratePerSec ≤ 0 ∨ b.capacity ≤ 0 then (b, false)
  else
    let b := b.refill now
    if b.tokens < count then (b, false) else ({ b with tokens := b.tokens - count }, true)

def tryTakeOne (b : RateBucket) (now : Instant) : RateBucket × Bool := b.tryTakeExact 1 now

def tryTake (b : RateBucket) (limit : ℕ) (now : Instant) : RateBucket × ℕ :=
  if limit = 0 ∨ b.ratePerSec ≤ 0 ∨ b.capacity ≤ 0 then (b, 0)
  else
    let b := b.refill now
    let taken := min ⌊b.tokens⌋₊ limit
    ({ b with tokens := b.tokens - taken }, taken)

def refund (b : RateBucket) (count : ℕ) : RateBucket :=
  { b with tokens := min (b.tokens + count) b.capacity }

def refundOne (b : RateBucket) : RateBucket := b.refund 1

end RateBucket

end DhtCrawler
