import NoiseFilter.Engine.Basic
import NoiseFilter.Proofs.Tree.Edit

/-!
# Runs of the engine

An engine is made from a configuration. Then it is called, in any order and any number of times, and
between the calls the page is edited by others.
-/

namespace NoiseFilter.Engine

/-- What an engine can be asked to do. -/
inductive Call where
  | applyOptions (o : Options)
  | setMode (mode : Mode)
  | processBatch (batch : ChangeBatch)

/-- The engine and the tree after a call. -/
def Call.perform (e : Engine) (t : Tree) : Call → Engine × Tree
  | applyOptions o => (e.applyOptions t o).2
  | setMode mode => (e.setMode t mode).2
  | processBatch batch => (e.processBatch t batch).2

/-- The engines and trees that come about on a page by calls, and by the edits that are allowed. -/
inductive Run (allowed : Record → Edit → Prop) (config : Config) (catalog : Catalog) (page : Tree) :
    Engine → Tree → Prop
  | start {e : Engine} (made : ofConfig config catalog = .ok e) :
    Run allowed config catalog page e page
  | call {e : Engine} {t : Tree} (k : Call) (before : Run allowed config catalog page e t) :
    Run allowed config catalog page (k.perform e t).1 (k.perform e t).2
  | edit {e : Engine} {t : Tree} (w : Edit) (before : Run allowed config catalog page e t)
      (fits : allowed e.record w) : Run allowed config catalog page e (w.apply t)

/-- A new engine has no rules and no records. -/
theorem eq_of_ofConfig {config : Config} {catalog : Catalog} {e : Engine}
    (made : ofConfig config catalog = .ok e) :
    e.config = config ∧ e.mode = .normal ∧ e.rules = [] ∧
      e.record = { marker := config.classificationAttribute } := by
  simp only [ofConfig, bind, Except.bind, pure, Except.pure] at made
  split at made
  · cases made
  · split at made
    · cases made
    · split at made
      · cases made
      · cases made
        exact ⟨rfl, rfl, rfl, rfl⟩

theorem Run.mono {allowed allowed' : Record → Edit → Prop} {config : Config} {catalog : Catalog}
    {page t : Tree} {e : Engine} (run : Run allowed config catalog page e t)
    (more : ∀ r w, allowed r w → allowed' r w) : Run allowed' config catalog page e t := by
  induction run with
  | start made => exact .start made
  | call k _ ih => exact .call k ih
  | edit w _ fits ih => exact .edit w ih (more _ w fits)

/-- Edits one after the other. -/
theorem Run.edits {allowed : Record → Edit → Prop} {config : Config} {catalog : Catalog}
    {page t : Tree} {e : Engine} (run : Run allowed config catalog page e t) (ws : List Edit)
    (fits : ∀ w ∈ ws, allowed e.record w) :
    Run allowed config catalog page e (ws.foldl (fun t w => w.apply t) t) := by
  induction ws generalizing t with
  | nil => exact run
  | cons w rest ih =>
    obtain ⟨fitsHere, fitsLater⟩ := List.forall_mem_cons.mp fits
    exact ih (.edit w run fitsHere) fitsLater

/-! ## Events -/

/-- What happens next: a call, or an edit by others. -/
inductive Event where
  | call (k : Call)
  | edit (w : Edit)

namespace Event

/-- The engine and the tree after an event. -/
def perform (s : Engine × Tree) : Event → Engine × Tree
  | call k => k.perform s.1 s.2
  | edit w => (s.1, w.apply s.2)

/-- The engine and the tree after events, one after the other. -/
def after (s : Engine × Tree) (events : List Event) : Engine × Tree := events.foldl perform s

theorem after_append (s : Engine × Tree) (before later : List Event) :
    after s (before ++ later) = after (after s before) later :=
  List.foldl_append

end Event

theorem Run.event {config : Config} {catalog : Catalog} {page : Tree} {s : Engine × Tree}
    (run : Run (fun _ _ => True) config catalog page s.1 s.2) (x : Event) :
    Run (fun _ _ => True) config catalog page (x.perform s).1 (x.perform s).2 := by
  cases x with
  | call k => exact .call k run
  | edit w => exact .edit w run trivial

theorem Run.after {config : Config} {catalog : Catalog} {page : Tree} {s : Engine × Tree}
    (run : Run (fun _ _ => True) config catalog page s.1 s.2) (events : List Event) :
    Run (fun _ _ => True) config catalog page (Event.after s events).1 (Event.after s events).2 := by
  induction events generalizing s with
  | nil => exact run
  | cons x rest ih => exact ih (run.event x)

/-! ## A small engine -/

/-- Posts are `a`, their texts `b`. -/
def smallConfig : Config := { postSelector := "a", postTextSelector := "b", unitSelector := "i" }

def smallEngine : Engine := (ofConfig smallConfig {}).toOption.get (by decide +kernel)

theorem eq_ok_of_toOption {ε α : Type} {x : Except ε α} {a : α} (result : x.toOption = some a) :
    x = .ok a := by
  cases x with
  | error _ => cases result
  | ok _ => exact congrArg Except.ok (Option.some.inj result)

theorem ofConfig_smallConfig : ofConfig smallConfig {} = .ok smallEngine :=
  eq_ok_of_toOption (Option.some_get _).symm

/-- A paragraph is put into the page. -/
def newParagraph : List Edit :=
  [.create (.element (.ofAttributes "p" [("class", "a"), ("title", "b")])), .append .root ⟨1⟩]

/-- A page with the paragraph from the start. -/
def pageWithParagraph : Tree := newParagraph.foldl (fun t w => w.apply t) .empty

/-- One rule, which looks for paragraphs with a class and a title. -/
def paragraphRule : Options :=
  { rules := .ofList [("r", { status := .enabled, selector := some "p.a[title]" })] }

end NoiseFilter.Engine
