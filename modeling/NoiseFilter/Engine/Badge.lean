import NoiseFilter.Settings.Config
import NoiseFilter.Text.Ascii

/-!
# Badge

The noise ratio is shown on a badge outside the page, once per interval at most. Values that come
too early are dropped, and so is everything once the badge has failed.
-/

namespace NoiseFilter

/-- What a badge shows: a percentage, or nothing for 0. -/
structure BadgeText where
  text : String
  deriving DecidableEq, Inhabited

namespace BadgeText

def ofRatio (ratio : Nat) : BadgeText := ⟨if ratio = 0 then "" else Text.digits ratio ++ "%"⟩

def isEmpty (b : BadgeText) : Bool := b.text.isEmpty

/-- What is shown when the badge is pointed at. -/
def title (b : BadgeText) (name : String) : String :=
  name ++ " \nRatio of noise in your feed: " ++ b.text

end BadgeText

/-- Lets one call through per interval. Times are in milliseconds, and may go backwards. -/
structure Throttle where
  interval : Nat
  last : Option Nat := none
  deriving DecidableEq, Inhabited

/-- Whether a call passes; one that does starts a new interval. -/
def Throttle.ready (t : Throttle) (now : Nat) : Bool × Throttle :=
  let early := t.last.any fun last => now - last < t.interval
  if early then (false, t) else (true, { t with last := some now })

/-- What became of a ratio. -/
inductive Delivery where
  /-- It came too early, or the badge had failed before. -/
  | dropped
  /-- The badge failed. -/
  | failed
  | shown (text : BadgeText) (title : String)
  deriving DecidableEq

/-- Forwards ratios to a badge. -/
structure BadgeForwarder where
  throttle : Throttle
  name : String
  available : Bool := true
  deriving DecidableEq, Inhabited

namespace BadgeForwarder

def ofConfig (config : Config) : BadgeForwarder where
  throttle := { interval := config.badgeIntervalMs }
  name := config.badgeTitle

/-- Offer a ratio; `works` says whether the badge would show it. -/
def offer (f : BadgeForwarder) (ratio now : Nat) (works : Bool) : Delivery × BadgeForwarder :=
  if !f.available then (.dropped, f)
  else
    let (ready, throttle) := f.throttle.ready now
    let f := { f with throttle }
    if !ready then (.dropped, f)
    else if works then
      let text := BadgeText.ofRatio ratio
      (.shown text (text.title f.name), f)
    else (.failed, { f with available := false })

end BadgeForwarder

end NoiseFilter
