import GroupedRows.Proofs.Session.Moment

/-!
# What holds at every moment

A condition on sessions may depend on the notices that are under way. To hold at every
moment it has to be kept by the calls of code outside, whatever receivers do within the
condition, and by each receiver as it is called. Calls are made of few kinds of
operations, and for each there is one lemma that says what it keeps.
-/

namespace GroupedRows

namespace Course

/-- Notices go out only from sessions fit for it, and the session is well at the end, if it is
well whenever receivers leave it. -/
def Keeps {α : Type} (sent : Notice → Session → Prop) (well : Session → Prop) :
    Course α → Prop
  | ended _ s => well s
  | sends n s rest => sent n s ∧ ∀ s, well s → (rest s).Keeps sent well

/-- A course that keeps a condition, also of what it sends, ends well if sending keeps it. -/
theorem Keeps.finish {α : Type} {well : Session → Prop} {c : Course α}
    (h : c.Keeps (fun _ => well) well) {emit : Emit} (hemit : ∀ n s, well s → well (emit n s)) :
    well (c.finish emit).2 := by
  induction c with
  | ended answer s => exact h
  | sends n s rest ih => exact ih _ (h.2 _ (hemit n s h.1))

end Course

namespace Moment

variable {allowed : Session → Step → Prop} {inv : UnderWay → Session → Prop}

/-- A notice may go out if the condition then holds with the notice under way. -/
def Fit (inv : UnderWay → Session → Prop) (us : UnderWay) (n : Notice) (s : Session) : Prop :=
  inv ((n, (s.signal n.channel).audience) :: us) (s.beginEmission n)

/-- What it takes for a condition to hold at every moment. -/
structure Safe (allowed : Session → Step → Prop) (inv : UnderWay → Session → Prop) : Prop where
  call : ∀ us s step, inv us s → allowed s step →
    ((Session.runStep step).start s).Keeps (Fit inv us) (inv us)
  note : ∀ us s listeners names held journal, inv us s →
    inv us { s with listeners, names, held, journal }
  receive : ∀ us n r pending s, inv ((n, r :: pending) :: us) s →
    inv ((n, pending) :: us) (s.receive n r)
  endEmission : ∀ us n s, inv ((n, []) :: us) s → inv us s.endEmission

/-- The calls that wait will keep the condition when they go on. -/
def RestsKeep (inv : UnderWay → Session → Prop) : List Waiting → Prop
  | [] => True
  | w :: waiting =>
    (∀ s, inv (underWay waiting) s →
      (w.rest s).Keeps (Fit inv (underWay waiting)) (inv (underWay waiting))) ∧
    RestsKeep inv waiting

/-- The condition holds now, and the calls that wait will keep it. -/
def Sound (inv : UnderWay → Session → Prop) (m : Moment) : Prop :=
  inv (underWay m.waiting) m.session ∧ RestsKeep inv m.waiting

/-- A course that keeps the condition goes on soundly. -/
theorem sound_goOn {waiting : List Waiting} {c : Course Answer}
    (h : c.Keeps (Fit inv (underWay waiting)) (inv (underWay waiting)))
    (hr : RestsKeep inv waiting) : Sound inv (goOn waiting c) := by
  cases c with
  | ended answer s => exact ⟨h, hr⟩
  | sends n s rest => exact ⟨h.1, h.2, hr⟩

/-- A move from a sound moment leads to a sound one. -/
theorem Safe.sound_of_moves (h : Safe allowed inv) {m m' : Moment} (hs : Sound inv m)
    (hm : Moves allowed m m') : Sound inv m' := by
  cases hm with
  | call _ step _ ha => exact sound_goOn (h.call _ _ step hs.1 ha) hs.2
  | note _ listeners names held journal _ => exact ⟨h.note _ _ _ _ _ _ hs.1, hs.2⟩
  | receive s n r pending l rest waiting => exact ⟨h.receive _ n r pending s hs.1, hs.2⟩
  | goOn s n l rest waiting => exact sound_goOn (hs.2.1 _ (h.endEmission _ n s hs.1)) hs.2.2

/-- A safe condition that holds at first holds at every moment. -/
theorem Safe.holds (h : Safe allowed inv) {s : Session} (h0 : inv [] s) {m : Moment}
    (hm : Reaches allowed ⟨s, []⟩ m) : inv (underWay m.waiting) m.session := by
  have hs : Sound inv m := by
    induction hm with
    | refl => exact ⟨h0, trivial⟩
    | tail _ hstep ih => exact h.sound_of_moves ih hstep
  exact hs.1

end Moment

end GroupedRows
