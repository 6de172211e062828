import Mathlib.Data.List.Chain
import Mathlib.Data.List.Induction
import NoiseFilter.Engine.Badge

/-!
# The pace of the badge

Ratios are offered to a badge that shows them or fails, as it likes, at times in any order. What happens is
kept as a trace: each offer with what became of it. The state of a forwarder says of the trace so far
whether a call has failed and when the last call was (`Follows`). From this follows when the next offer
reaches the badge (`Follows.offer_cases`), and from that the distance between calls and the silence after a
failure.
-/

namespace NoiseFilter

variable {σ : Type}

/-- What a badge does when it is called with a text and a title: whether it shows them, and how it goes
on. -/
abbrev BadgeDisplay (σ : Type) := σ → BadgeText → String → Bool × σ

/-- A ratio that is offered at some time. -/
structure Offer where
  ratio : Nat
  time : Nat

namespace Offer

variable (o : Offer) (display : BadgeDisplay σ) (name : String) (s : σ)

def text : BadgeText := .ofRatio o.ratio

/-- What a badge answers to an offer. -/
def put : Bool × σ := display s o.text (o.text.title name)

/-- What becomes of an offer that reaches the badge. -/
def answer : Delivery := if (o.put display name s).1 then .shown o.text (o.text.title name) else .failed

end Offer

namespace Delivery

/-- Whether the badge was called. -/
def isCall : Delivery → Bool
  | dropped => false
  | failed | shown _ _ => true

/-- Whether the badge shows the ratio. -/
def isShown : Delivery → Bool
  | shown _ _ => true
  | dropped | failed => false

end Delivery

/-- An offer, and what became of it. -/
structure Outcome where
  offer : Offer
  delivery : Delivery

namespace Outcome

/-- The outcomes of a trace in which the badge was called. -/
def calls (trace : List Outcome) : List Outcome := trace.filter (·.delivery.isCall)

/-- No call has failed. -/
def Unfailed (trace : List Outcome) : Prop := ∀ e ∈ trace, e.delivery ≠ .failed

/-- An offer at this time comes first, or when the interval since the last call is over. -/
def Due (interval : Nat) (trace : List Outcome) (now : Nat) : Prop :=
  trace = [] ∨ ∃ last, (calls trace).getLast? = some last ∧ interval ≤ now - last.offer.time

/-- What becomes of a badge by the calls of a trace, in order. -/
def shownTo (display : BadgeDisplay σ) (name : String) (s : σ) (trace : List Outcome) : σ :=
  (calls trace).foldl (fun s e => (e.offer.put display name s).2) s

variable {trace : List Outcome} {e : Outcome}

theorem calls_concat_of_isCall (call : e.delivery.isCall = true) :
    calls (trace ++ [e]) = calls trace ++ [e] := by
  rw [calls, List.filter_append, calls, List.filter_cons, if_pos call, List.filter_nil]

theorem calls_concat_of_not (noCall : e.delivery.isCall = false) : calls (trace ++ [e]) = calls trace := by
  rw [calls, List.filter_append, calls, List.filter_cons, if_neg (by simp [noCall]), List.filter_nil,
    List.append_nil]

theorem unfailed_concat : Unfailed (trace ++ [e]) ↔ Unfailed trace ∧ e.delivery ≠ .failed := by
  rw [Unfailed, List.forall_mem_append, List.forall_mem_singleton]
  rfl

end Outcome

open Outcome

@[simp] theorem Offer.isCall_answer (o : Offer) (display : BadgeDisplay σ) (name : String) (s : σ) :
    (o.answer display name s).isCall = true := by
  rw [answer]
  split <;> rfl

namespace Throttle

/-- The interval since the last call is over, or there was no call. -/
def Passes (t : Throttle) (now : Nat) : Prop := ∀ last ∈ t.last, t.interval ≤ now - last

variable {t : Throttle} {now : Nat}

theorem early_iff :
    (t.last.any fun last => decide (now - last < t.interval)) = true ↔ ¬ t.Passes now := by
  rw [Passes]
  cases t.last <;> simp

theorem ready_of_passes (passes : t.Passes now) : t.ready now = (true, { t with last := some now }) :=
  if_neg (early_iff.not_left.mpr passes)

theorem ready_of_early (early : ¬ t.Passes now) : t.ready now = (false, t) :=
  if_pos (early_iff.mpr early)

end Throttle

namespace BadgeForwarder

/-- An offer at this time reaches the badge. -/
def Opens (f : BadgeForwarder) (now : Nat) : Prop := f.available = true ∧ f.throttle.Passes now

variable {f : BadgeForwarder} {now : Nat}

theorem offer_of_opens (opens : f.Opens now) (ratio : Nat) (works : Bool) : f.offer ratio now works =
    (if works then .shown (.ofRatio ratio) ((BadgeText.ofRatio ratio).title f.name) else .failed,
      { f with throttle := { f.throttle with last := some now }, available := works }) := by
  obtain ⟨available, passes⟩ := opens
  cases works <;> simp [offer, available, Throttle.ready_of_passes passes]

theorem offer_of_not_opens (closed : ¬ f.Opens now) (ratio : Nat) (works : Bool) :
    f.offer ratio now works = (.dropped, f) := by
  cases available : f.available with
  | false => simp [offer, available]
  | true =>
    have early : ¬ f.throttle.Passes now := fun passes => closed ⟨available, passes⟩
    rw [offer, Throttle.ready_of_early early]
    exact if_neg (by simp [available])

end BadgeForwarder

/-- A forwarder and the state of the badge behind it. -/
structure Forwarding (σ : Type) where
  forwarder : BadgeForwarder
  badge : σ

namespace Forwarding

variable (display : BadgeDisplay σ)

/-- Offer a ratio. The badge goes on if it is called, and is left alone if it is not. -/
def offer (f : Forwarding σ) (o : Offer) : Delivery × Forwarding σ :=
  let (works, next) := o.put display f.forwarder.name f.badge
  let (delivery, forwarder) := f.forwarder.offer o.ratio o.time works
  (delivery, { forwarder, badge := if delivery.isCall then next else f.badge })

/-- Nothing has been offered yet. -/
def start (interval : Nat) (name : String) (s : σ) : Forwarding σ :=
  { forwarder := { throttle := { interval }, name }, badge := s }

/-- The state after offers, one after the other. -/
def after (f : Forwarding σ) (offers : List Offer) : Forwarding σ :=
  offers.foldl (fun f o => (f.offer display o).2) f

/-- Offers, one after the other, with what becomes of them. -/
def trace (f : Forwarding σ) : List Offer → List Outcome
  | [] => []
  | o :: offers => ⟨o, (f.offer display o).1⟩ :: trace (f.offer display o).2 offers

variable {display}

theorem after_concat (f : Forwarding σ) (offers : List Offer) (o : Offer) :
    f.after display (offers ++ [o]) = ((f.after display offers).offer display o).2 := by
  simp [after]

theorem trace_append (f : Forwarding σ) (offers more : List Offer) : f.trace display (offers ++ more) =
    f.trace display offers ++ (f.after display offers).trace display more := by
  induction offers generalizing f with
  | nil => rfl
  | cons o offers ih =>
    rw [List.cons_append, trace, trace, ih, List.cons_append]
    rfl

theorem map_offer_trace (f : Forwarding σ) (offers : List Offer) :
    (f.trace display offers).map Outcome.offer = offers := by
  induction offers generalizing f with
  | nil => rfl
  | cons o offers ih => rw [trace, List.map_cons, ih]

/-- What stands in a trace came of what stands in front of it. -/
theorem of_trace_eq {f : Forwarding σ} {offers : List Offer} {front back : List Outcome} {e : Outcome}
    (halves : f.trace display offers = front ++ e :: back) :
    f.trace display (front.map Outcome.offer) = front ∧
      e.delivery = ((f.after display (front.map Outcome.offer)).offer display e.offer).1 := by
  have whole : (f.trace display offers).map Outcome.offer = offers := f.map_offer_trace offers
  rw [halves, List.map_append, List.map_cons] at whole
  rw [← whole, trace_append] at halves
  have length : (f.trace display (front.map Outcome.offer)).length = front.length := by
    rw [← List.length_map (f := Outcome.offer), map_offer_trace, List.length_map]
  obtain ⟨same, behind⟩ := List.append_inj halves length
  rw [trace, List.cons.injEq] at behind
  exact ⟨same, congrArg Outcome.delivery behind.1.symm⟩

/-! ## What the state says of the trace -/

/-- A state has been reached from the start along a trace. -/
structure Follows (display : BadgeDisplay σ) (interval : Nat) (name : String) (s : σ)
    (f : Forwarding σ) (trace : List Outcome) : Prop where
  keepsInterval : f.forwarder.throttle.interval = interval
  keepsName : f.forwarder.name = name
  available : f.forwarder.available = true ↔ Unfailed trace
  last : f.forwarder.throttle.last = (calls trace).getLast?.map (·.offer.time)
  /-- The first offer reaches the badge. -/
  called : trace ≠ [] → calls trace ≠ []
  badge : f.badge = shownTo display name s trace

variable {interval : Nat} {name : String} {s : σ} {f : Forwarding σ} {trace : List Outcome}

theorem follows_start : Follows display interval name s (start interval name s) [] :=
  ⟨rfl, rfl, iff_of_true rfl (List.forall_mem_nil _), rfl, absurd rfl, rfl⟩

namespace Follows

variable (follows : Follows display interval name s f trace)

include follows

/-- An offer reaches the badge if no call has failed and it is due. -/
theorem opens_iff (now : Nat) : f.forwarder.Opens now ↔ Unfailed trace ∧ Due interval trace now := by
  refine and_congr follows.available ?_
  rw [Throttle.Passes, follows.last, follows.keepsInterval]
  cases found : (calls trace).getLast? with
  | none =>
    have empty : trace = [] := by
      by_contra nonempty
      exact follows.called nonempty (List.getLast?_eq_none_iff.mp found)
    exact iff_of_true nofun (.inl empty)
  | some last =>
    have nonempty : trace ≠ [] := by
      rintro rfl
      cases found
    simp [Due, found, nonempty]

/-- All that an offer can do: it is dropped and nothing changes, or it reaches the badge, and this answers
and goes on. -/
theorem offer_cases (o : Offer) :
    (¬ (Unfailed trace ∧ Due interval trace o.time) ∧ f.offer display o = (.dropped, f)) ∨
      (Unfailed trace ∧ Due interval trace o.time) ∧
        f.offer display o = (o.answer display name (shownTo display name s trace),
          { forwarder := { f.forwarder with
              throttle := { f.forwarder.throttle with last := some o.time }
              available := (o.put display name (shownTo display name s trace)).1 }
            badge := (o.put display name (shownTo display name s trace)).2 }) := by
  rw [← follows.opens_iff, offer, follows.keepsName, follows.badge]
  by_cases opens : f.forwarder.Opens o.time
  · refine .inr ⟨opens, ?_⟩
    simp only [BadgeForwarder.offer_of_opens opens, follows.keepsName, Offer.answer]
    cases (o.put display name (shownTo display name s trace)).1 <;> rfl
  · refine .inl ⟨opens, ?_⟩
    simp only [BadgeForwarder.offer_of_not_opens opens, ← follows.badge]
    rfl

/-- The state after one more offer says the same of the longer trace. -/
theorem offer (o : Offer) : Follows display interval name s (f.offer display o).2
    (trace ++ [⟨o, (f.offer display o).1⟩]) := by
  obtain ⟨closed, step⟩ | ⟨⟨unfailed, -⟩, step⟩ := follows.offer_cases o <;> rw [step]
  · have same : calls (trace ++ [⟨o, .dropped⟩]) = calls trace := calls_concat_of_not rfl
    have nonempty : trace ≠ [] := by
      rintro rfl
      exact closed ⟨List.forall_mem_nil _, .inl rfl⟩
    refine ⟨follows.keepsInterval, follows.keepsName, ?_, ?_, ?_, ?_⟩
    · rw [unfailed_concat, follows.available]
      exact (and_iff_left nofun).symm
    · rw [same, follows.last]
    · rw [same]
      exact fun _ => follows.called nonempty
    · rw [shownTo, same, follows.badge, shownTo]
  · have more : calls (trace ++ [⟨o, o.answer display name (shownTo display name s trace)⟩]) =
        calls trace ++ [⟨o, o.answer display name (shownTo display name s trace)⟩] :=
      calls_concat_of_isCall (o.isCall_answer ..)
    refine ⟨follows.keepsInterval, follows.keepsName, ?_, ?_, ?_, ?_⟩
    · rw [unfailed_concat, and_iff_right unfailed]
      simp [Offer.answer]
    · rw [more, List.getLast?_concat]
      rfl
    · rw [more]
      exact fun _ => List.concat_ne_nil _ _
    · conv_rhs => rw [shownTo, more, List.foldl_concat]
      rfl

end Follows

/-- However many offers there are, the state says what has become of them. -/
theorem follows_after (offers : List Offer) : Follows display interval name s
    ((start interval name s).after display offers) ((start interval name s).trace display offers) := by
  induction offers using List.reverseRecOn with
  | nil => exact follows_start
  | append_singleton offers o ih =>
    rw [after_concat, trace_append]
    exact ih.offer o

/-! ## The trace -/

/-- An offer of a trace was not yet to be put to the badge, or the badge has answered it. -/
theorem outcome_cases {offers : List Offer} {front back : List Outcome} {e : Outcome}
    (halves : (start interval name s).trace display offers = front ++ e :: back) :
    (¬ (Unfailed front ∧ Due interval front e.offer.time) ∧ e.delivery = .dropped) ∨
      (Unfailed front ∧ Due interval front e.offer.time) ∧
        e.delivery = e.offer.answer display name (shownTo display name s front) := by
  obtain ⟨same, delivery⟩ := of_trace_eq halves
  have follows : Follows display interval name s _ _ := follows_after (front.map Outcome.offer)
  rw [same] at follows
  rw [delivery]
  obtain ⟨closed, step⟩ | ⟨opens, step⟩ := follows.offer_cases e.offer <;> rw [step]
  · exact .inl ⟨closed, rfl⟩
  · exact .inr ⟨opens, rfl⟩

/-- After a failure all offers are dropped. -/
theorem dropped_of_failed {offers : List Offer} {front back : List Outcome} {e later : Outcome}
    (halves : (start interval name s).trace display offers = front ++ e :: back)
    (failed : e.delivery = .failed) (member : later ∈ back) : later.delivery = .dropped := by
  obtain ⟨between, rest, rfl⟩ := List.append_of_mem member
  rw [← List.cons_append, ← List.append_assoc] at halves
  obtain ⟨-, dropped⟩ | ⟨⟨unfailed, -⟩, -⟩ := outcome_cases halves
  · exact dropped
  · exact absurd failed (unfailed e (by simp))

/-- Two calls in a row are at least the interval apart. -/
theorem isChain_calls (offers : List Offer) :
    (calls ((start interval name s).trace display offers)).IsChain fun a b =>
      interval ≤ b.offer.time - a.offer.time := by
  induction offers using List.reverseRecOn with
  | nil => exact .nil
  | append_singleton offers o ih =>
    rw [trace_append, trace, trace]
    have follows : Follows display interval name s _ _ := follows_after offers
    obtain ⟨-, step⟩ | ⟨⟨-, due⟩, step⟩ := follows.offer_cases o
    · rw [step, calls_concat_of_not rfl]
      exact ih
    · rw [step, calls_concat_of_isCall (o.isCall_answer ..), List.isChain_append]
      refine ⟨ih, .singleton _, fun last there next here => ?_⟩
      cases here
      obtain empty | ⟨last', there', distance⟩ := due
      · rw [empty] at there
        cases there
      · cases Option.some.inj (there.symm.trans there')
        exact distance

/-- Whatever a badge does and whenever ratios are offered to it: it is called for an offer exactly if no
earlier call has failed and the offer is the first or comes at least the interval after the last call. It is
called with the text of that offer and of no other, and the offer is answered by what it shows. Two calls in
a row are at least the interval apart, and after a failure all offers are dropped. -/
theorem trace_paced (interval : Nat) (name : String) (s : σ) (display : BadgeDisplay σ)
    (offers : List Offer) :
    let trace := (start interval name s).trace display offers
    trace.map Outcome.offer = offers ∧
    (∀ front e back, trace = front ++ e :: back →
      (e.delivery.isCall = true ↔ Unfailed front ∧ Due interval front e.offer.time) ∧
      (e.delivery.isShown = true ↔ e.delivery.isCall = true ∧
        (e.offer.put display name (shownTo display name s front)).1 = true) ∧
      (e.delivery.isCall = true →
        e.delivery = e.offer.answer display name (shownTo display name s front)) ∧
      (e.delivery = .failed → ∀ later ∈ back, later.delivery = .dropped)) ∧
    (calls trace).IsChain (fun a b => interval ≤ b.offer.time - a.offer.time) ∧
    ((start interval name s).after display offers).badge = shownTo display name s trace := by
  refine ⟨map_offer_trace _ _, fun front e back halves => ?_, isChain_calls offers,
    (follows_after offers).badge⟩
  have silent (failed : e.delivery = .failed) : ∀ later ∈ back, later.delivery = .dropped :=
    fun later member => dropped_of_failed halves failed member
  obtain ⟨closed, dropped⟩ | ⟨opens, answered⟩ := outcome_cases halves
  · rw [dropped]
    exact ⟨iff_of_false Bool.false_ne_true closed, iff_of_false Bool.false_ne_true nofun, nofun, nofun⟩
  · refine ⟨iff_of_true (by simp [answered]) opens, ?_, fun _ => answered, silent⟩
    rw [answered, Offer.isCall_answer, Offer.answer, and_iff_right rfl]
    cases (e.offer.put display name (shownTo display name s front)).1 <;> simp [Delivery.isShown]

/-- A badge that fails when it is called for the third time. -/
example :
    ((start 18 "feed" 0).trace (fun calls _ _ => (calls != 2, calls + 1))
      [⟨1, 0⟩, ⟨2, 5⟩, ⟨3, 18⟩, ⟨4, 36⟩, ⟨5, 54⟩]).map (fun e => (e.delivery.isCall, e.delivery.isShown)) =
      [(true, true), (false, false), (true, true), (true, false), (false, false)] := by
  decide

end Forwarding

end NoiseFilter
