import NoiseFilter.Score.Basic

/-!
# Configuration

The classes and attributes that mark elements, the selectors that find posts, and what the badge
and the scorer need.
-/

namespace NoiseFilter

structure Config where
  normalClass : String := "sift-dim"
  extremeClass : String := "sift-remove"
  customClass : String := "sift-custom"
  highlightClass : String := "sift-highlight"
  aiClass : String := "sift-ai"
  /-- The attribute that names the rule an element is classified by. -/
  classificationAttribute : String := "data-sift"
  /-- The attribute that remembers what the scorer said. -/
  aiCheckedAttribute : String := "data-sift-ai-check"
  /-- The rule that asks the scorer. -/
  aiRuleId : String := "ai"
  postSelector : String := "div[data-id^=\"urn:li:\"] div.feed-shared-update-v2"
  postTextSelector : String := ".update-components-update-v2__commentary .tvm-parent-container"
  unitSelector : String := "div[data-id]"
  /-- What stands for the post selector in a catalog. -/
  placeholder : String := "$\x7bPOST_SELECTOR\x7d"
  /-- Milliseconds between two updates of the badge. -/
  badgeIntervalMs : Nat := 18000
  badgeTitle : String := "sift"
  thresholds : Score.Thresholds := {}

end NoiseFilter
