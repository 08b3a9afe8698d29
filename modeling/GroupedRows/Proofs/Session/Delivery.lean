import GroupedRows.Proofs.Session.Moment

/-!
# Whole calls

Where moments follow a session from one receiver to the next, here a call is taken as a
whole: it ends with an answer after certain notices have gone out. What listeners do while
a notice is delivered is left open: they make whole calls of their own. Whatever happens in
whole calls also happens from moment to moment.
-/

namespace GroupedRows

/-- What may happen while a notice is delivered: the notices that go out, the one that is delivered
included, and the session that is left. -/
abbrev Delivery := Notice → Session → List Notice → Session → Prop

namespace Course

variable {α β : Type} {d : Delivery}

/-- The course ends with an answer in a session, and these notices go out until then. -/
inductive Ends (d : Delivery) : Course α → List Notice → α → Session → Prop where
  | ended (answer : α) (s : Session) : Ends d (.ended answer s) [] answer s
  | sends {n : Notice} {s s' t : Session} {rest : Session → Course α} {ns ms : List Notice}
      {answer : α} : d n s ns s' → Ends d (rest s') ms answer t →
      Ends d (.sends n s rest) (ns ++ ms) answer t

/-- A course that goes on ends when its second part does. -/
theorem Ends.of_andThen {c : Course α} {f : α → Session → Course β} {ns : List Notice} {b : β}
    {t : Session} (h : (c.andThen f).Ends d ns b t) :
    ∃ ns₁ a s ns₂, c.Ends d ns₁ a s ∧ (f a s).Ends d ns₂ b t ∧ ns = ns₁ ++ ns₂ := by
  induction c generalizing ns with
  | ended a s => exact ⟨[], a, s, ns, .ended a s, h, rfl⟩
  | sends n s rest ih =>
    cases h with
    | sends hd hrest =>
      obtain ⟨ns₁, a, s', ns₂, hc, hf, rfl⟩ := ih _ hrest
      exact ⟨_, a, s', ns₂, .sends hd hc, hf, (List.append_assoc _ _ _).symm⟩

end Course

namespace Call

variable {α β : Type} {d : Delivery} {s t : Session} {ns : List Notice} {b : β}

/-- The call ends with an answer in a session, and these notices go out until then. -/
abbrev Ends (d : Delivery) (m : Call α) (s : Session) (ns : List Notice) (answer : α)
    (t : Session) : Prop :=
  (m.start s).Ends d ns answer t

theorem Ends.of_pure {a b : α} (h : Ends d (pure a) s ns b t) : ns = [] ∧ b = a ∧ t = s := by
  cases h
  exact ⟨rfl, rfl, rfl⟩

/-- A call that goes on after another ends as the second does, after the notices of both. -/
theorem Ends.of_bind {m : Call α} {f : α → Call β} (h : Ends d (m >>= f) s ns b t) :
    ∃ ns₁ a s' ns₂, Ends d m s ns₁ a s' ∧ Ends d (f a) s' ns₂ b t ∧ ns = ns₁ ++ ns₂ :=
  Course.Ends.of_andThen h

theorem Ends.of_read {f : Session → Call β} (h : Ends d (read >>= f) s ns b t) :
    Ends d (f s) s ns b t := h

/-- A call that begins with a change ends as it does after the change. -/
theorem Ends.of_change {g : Session → Session} {f : Unit → Call β}
    (h : Ends d (change g >>= f) s ns b t) : Ends d (f ()) (g s) ns b t := h

/-- A call that begins with a notice ends as it does after the delivery. -/
theorem Ends.of_send {n : Notice} {f : Unit → Call β} (h : Ends d (send n >>= f) s ns b t) :
    ∃ ns₁ s' ns₂, d n s ns₁ s' ∧ Ends d (f ()) s' ns₂ b t ∧ ns = ns₁ ++ ns₂ := by
  obtain ⟨_, _, s', ns₂, hn, hf, rfl⟩ := h.of_bind
  cases hn with
  | sends hd hend =>
    cases hend
    exact ⟨_, s', ns₂, hd, hf, by rw [List.append_nil]⟩

end Call

namespace Session

/-- Code outside acts: it makes calls, which may depend on how notices are delivered, and takes
notes. -/
inductive Acts (allowed : Session → Step → Prop) (d : Delivery) :
    Session → List Notice → Session → Prop where
  | rest (s : Session) : Acts allowed d s [] s
  | note {s s' : Session} {ns : List Notice} (listeners : List Listener)
      (names : OrderedMap String SlotId) (held : OrderedMap String Snapshot)
      (journal : List Event) : Acts allowed d s ns s' →
      Acts allowed d s ns { s' with listeners, names, held, journal }
  | call {s s' t : Session} {ns ms : List Notice} {step : Step} {answer : Answer} :
      Acts allowed d s ns s' → allowed s' step → Call.Ends d (runStep step) s' ms answer t →
      Acts allowed d s (ns ++ ms) t

/-- To act and to go on acting is to act. -/
theorem Acts.trans {allowed : Session → Step → Prop} {d : Delivery} {s s' t : Session}
    {ns ms : List Notice} (h : Acts allowed d s ns s') (h' : Acts allowed d s' ms t) :
    Acts allowed d s (ns ++ ms) t := by
  induction h' with
  | rest => rwa [List.append_nil]
  | note listeners names held journal _ ih => exact .note listeners names held journal ih
  | call _ hallowed hends ih =>
    rw [← List.append_assoc]
    exact .call ih hallowed hends

/-- Receivers are called one after the other, and listeners act. -/
inductive Called (act : Session → List Notice → Session → Prop) (n : Notice) :
    List Receiver → Session → List Notice → Session → Prop where
  | nil (s : Session) : Called act n [] s [] s
  | cons {r : Receiver} {pending : List Receiver} {s s' : Session} {ns : List Notice} :
      r.isListener = false → Called act n pending (s.receive n r) ns s' →
      Called act n (r :: pending) s ns s'
  | listener (number : Nat) {pending : List Receiver} {s s' t : Session} {ns ms : List Notice} :
      act s ns s' → Called act n pending s' ms t →
      Called act n (.listener number :: pending) s (ns ++ ms) t

/-- The notice goes out, unless its signal is blocked, and the receivers of this moment are
called. -/
def Delivers (act : Session → List Notice → Session → Prop) : Delivery := fun n s ns s' =>
  ∃ ms t, Called act n (s.signal n.channel).audience (s.beginEmission n) ms t ∧
    ns = (if (s.signal n.channel).blocked then [] else [n]) ++ ms ∧ s' = t.endEmission

/-- Notices are delivered while listeners act, and notices inside of it, at most `depth` deep. -/
def delivery (allowed : Session → Step → Prop) : Nat → Delivery
  | 0 => Delivers fun s ns s' => ns = [] ∧ s' = s
  | depth + 1 => Delivers (Acts allowed (delivery allowed depth))

end Session

/-! ## From moment to moment -/

namespace Moment

open Session

variable {allowed : Session → Step → Prop} {d : Delivery} {s s' : Session} {ns : List Notice}
  {waiting : List Waiting}

theorem isFree_nil : IsFree [] := fun _ hw => absurd hw.symm (Option.some_ne_none _)

/-- While code outside has control, to act leads on. -/
def Leads (allowed : Session → Step → Prop) (act : Session → List Notice → Session → Prop) :
    Prop :=
  ∀ s ns s' waiting, act s ns s' → IsFree waiting → Reaches allowed ⟨s, waiting⟩ ⟨s', waiting⟩

/-- A delivery leads from the departure of its notice to where the call goes on. -/
theorem reaches_delivers {act : Session → List Notice → Session → Prop} (h : Leads allowed act)
    {n : Notice} (hd : Delivers act n s ns s') (rest : Session → Course Answer)
    (waiting : List Waiting) :
    Reaches allowed (goOn waiting (.sends n s rest)) (goOn waiting (rest s')) := by
  obtain ⟨ms, t, hcalled, -, rfl⟩ := hd
  have hreceivers : ∀ {pending s ns t} l, Called act n pending s ns t →
      Reaches allowed ⟨s, ⟨n, pending, l, rest⟩ :: waiting⟩ (goOn waiting (rest t.endEmission)) := by
    intro pending s ns t l hcalled
    induction hcalled generalizing l with
    | nil s => exact .single (.goOn s n l rest waiting)
    | @cons r pending s _ _ _ _ ih =>
      exact .head (.receive s n r pending l rest waiting) (ih _)
    | @listener number pending s _ _ _ _ hact _ ih =>
      have hfree : IsFree (⟨n, pending, true, rest⟩ :: waiting) := by
        intro w hw
        obtain rfl : _ = w := by simpa using hw
        rfl
      exact .head (.receive s n (.listener number) pending l rest waiting)
        (.trans (h _ _ _ _ hact hfree) (ih true))
  exact hreceivers false hcalled

/-- A course leads to its end if deliveries lead on. -/
theorem reaches_ends (h : ∀ n s ns s', d n s ns s' → ∀ rest waiting,
      Reaches allowed (goOn waiting (.sends n s rest)) (goOn waiting (rest s')))
    {c : Course Answer} {answer : Answer} (hc : c.Ends d ns answer s') (waiting : List Waiting) :
    Reaches allowed (goOn waiting c) ⟨s', waiting⟩ := by
  induction hc with
  | ended answer s => exact .refl
  | sends hd _ ih => exact (h _ _ _ _ hd _ waiting).trans ih

/-- Who acts in any way leads on, if each notice does. -/
theorem leads_acts (h : ∀ n s ns s', d n s ns s' → ∀ rest waiting,
      Reaches allowed (goOn waiting (.sends n s rest)) (goOn waiting (rest s'))) :
    Leads allowed (Acts allowed d) := by
  intro s ns s' waiting hact hfree
  induction hact with
  | rest => exact .refl
  | note listeners names held journal _ ih =>
    exact ih.tail (.note _ listeners names held journal hfree)
  | call _ hallowed hends ih =>
    exact ih.trans (.head (.call _ _ hfree hallowed) (reaches_ends h hends waiting))

/-- What happens in whole calls happens from moment to moment, however deep notices nest. -/
theorem leads_delivery (depth : Nat) : Leads allowed (Acts allowed (delivery allowed depth)) := by
  have hnothing : Leads allowed fun s ns s' => ns = [] ∧ s' = s := by
    rintro s _ _ waiting ⟨rfl, rfl⟩ _
    exact .refl
  induction depth with
  | zero => exact leads_acts fun _ _ _ _ hd => reaches_delivers hnothing hd
  | succ depth ih => exact leads_acts fun _ _ _ _ hd => reaches_delivers ih hd

end Moment

end GroupedRows
