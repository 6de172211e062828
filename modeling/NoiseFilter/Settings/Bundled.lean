import NoiseFilter.Settings.Catalog

/-!
# The bundled catalog

Rules for a professional network: recommended posts, celebrations, reactions, advertisements.
-/

namespace NoiseFilter.Catalog

/-- What stands for the post selector in the bundled catalog. -/
def anyPost : String := "$\x7bPOST_SELECTOR\x7d"

/-- An element whose text a pattern matches somewhere. -/
def saying (element pattern : String) : String := element ++ ":contains(/" ++ pattern ++ "/)"

/-- Posts that hold something. -/
def postWith (inner : String) : String := anyPost ++ ":has(" ++ inner ++ ")"

/-- Posts whose header says something. -/
def headerSays (pattern : String) : Option String :=
  some (postWith (saying "span.update-components-header__text-view" pattern))

/-- Posts whose headline celebrates something. -/
def headlineSays (pattern : String) : Option String :=
  some (postWith (saying "div.update-components-celebration__headline" pattern))

/-- Posts whose showcase says something. -/
def showcaseSays (pattern : String) : Option String :=
  some (postWith (saying "div.update-components-showcase__title" pattern))

def gamesPattern : String := "Stay in touch through daily games"

/-- The groups of the bundled catalog. -/
def bundledGroups : List Group := [
  { group := "Recommendations"
    settings := [
      { id := "follow", label := "Brands to follow"
        selector := some
          (postWith (":not(div.feed-shared-update-v2__update-content-wrapper)"
              ++ " a[aria-label$=\"followers\"]")
            ++ ":has(" ++ saying "span[aria-hidden=\"true\"]" "^Follow" ++ ")")
        status := some true },
      { id := "events", label := "Events"
        selector := headerSays "^Events recommended for you$", status := some true },
      { id := "courses", label := "Popular courses"
        selector := some
          ("div[data-id^=\"urn:li:lyndaCourse:\"] div.feed-shared-update-v2:has("
            ++ saying "span.update-components-header__text-view"
              "^Popular course on LinkedIn Learning$" ++ ")")
        status := some true },
      { id := "groups", label := "Groups"
        selector := some
          ("section.groups-listing__recommendations,"
            ++ "section[aria-labelledby^=\"groups-recommendations-\"]")
        status := some true },
      { id := "games", label := "Games"
        selector := some
          ("hr + div:not([role=\"main\"]):has(" ++ saying "h2" gamesPattern ++ "),"
            ++ "div[data-view-name=\"invitation-preview\"] + section:has("
            ++ saying "h2" gamesPattern ++ ")")
        status := some true },
      { id := "jobs", label := "Jobs"
        selector := some
          ("div[data-id*=\"urn:li:jobPosting:\"] div.feed-shared-update-v2,"
            ++ "div[data-id^=\"urn:li:inAppPromotion:\"] div.feed-shared-update-v2")
        status := some true },
      { id := "people", label := "People"
        selector := headerSays "^People who follow", status := some true },
      { id := "promoted", label := "Promoted"
        selector := some (postWith (saying "span[aria-hidden=\"true\"]" "^Promoted"))
        status := some true },
      { id := "recommended", label := "For you"
        selector := headerSays "^Recommended for you$", status := some true },
      { id := "suggested", label := "Suggested"
        selector := headerSays "Suggested", status := some true },
      { id := "videos", label := "Videos"
        selector := headerSays "^Videos for you$", status := some true }] },
  { group := "Celebrations"
    settings := [
      { id := "anniversary", label := "Anniversaries"
        selector := headlineSays "Anniversary", status := some true },
      { id := "celebrations", label := "Certifications"
        selector := headlineSays "Celebrating a New Certification", status := some true },
      { id := "education", label := "Education milestones"
        selector := headlineSays "Milestone", status := some true },
      { id := "jobUpdates", label := "Job updates"
        selector := headerSays "job update", status := some true },
      { id := "position", label := "Positions"
        selector := headlineSays "Starting a New Position", status := some true },
      { id := "project", label := "Projects"
        selector := headlineSays "Project", status := some true },
      { id := "promotion", label := "Promotions"
        selector := showcaseSays "has been promoted", status := some true },
      { id := "work", label := "Open to Work"
        selector := showcaseSays "open to work", status := some true }] },
  { group := "Engagement"
    settings := [
      { id := "commented", label := "Commented on..."
        selector := headerSays "commented on this$" },
      { id := "congrats", label := "Congratulate posts"
        selector := some (postWith (saying "span" "congratulate")) },
      { id := "reposted", label := "Reposts", selector := headerSays "reposted this$" },
      { id := "polls", label := "Polls"
        selector := some (postWith "div.update-components-poll") }] },
  { group := "Sidebar & Premium"
    settings := [
      { id := "ads", label := "Ads"
        selector := some "section iframe[title='Advertisement' i]", status := some true },
      { id := "news", label := "News"
        selector := some "section.artdeco-card:has(#feed-news-module)", status := some true },
      { id := "premium", label := "Premium"
        selector := some
          ("div.artdeco-card:has(a[class*=\"premium-upsell\"]),"
            ++ "div[data-id^=\"urn:li:inAppPromotion\"] div.feed-shared-update-v2,"
            ++ "section.premium-accent-bar,"
            ++ "div[data-view-name=\"cohorts-section-freemium-service-provider-lead\"] section")
        status := some true }] },
  { group := "Reactions"
    settings := [
      { id := "likes", label := "Like", selector := headerSays "likes* this" },
      { id := "celebrates", label := "Celebrate", selector := headerSays "celebrates* this" },
      { id := "supports", label := "Support", selector := headerSays "supports* this" },
      { id := "loves", label := "Love", selector := headerSays "loves* this" },
      { id := "insightful", label := "Insightful"
        selector := headerSays "finds* this insightful" },
      { id := "funny", label := "Funny", selector := headerSays "finds* this funny" },
      { id := "reacted", label := "Multiple", selector := headerSays "reacted to this" }] },
  { group := "AI"
    settings := [
      { id := "ai", label := "Formulaic or machine-written posts", status := some false }] },
  { group := "Custom Filters"
    settings := [
      { id := "brands", label := "Tone color on brands you follow"
        selector := some
          (postWith (saying "div.update-components-actor--with-control-menu-and-hide-post"
            "\\d+\\s+followers"))
        cls := some "sift-highlight", status := some true },
      { id := "custom_1"
        selector := some (saying anyPost "example")
        cls := some "sift-custom", color := some "#0078D4" }] }]

/-- The bundled catalog, under a configuration. -/
def bundled (config : Config) : Catalog := .ofGroups config bundledGroups

end NoiseFilter.Catalog
