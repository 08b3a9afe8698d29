import GroupedRows.Proofs.Session.Views

/-!
# What arrives at a client

A client owns some receivers. A notice arrives at it whenever one of them is called, and
then it can look at the session as it is at that moment, in the middle of the emission.
-/

namespace GroupedRows

open Call Session

/-- Which receivers belong to the client. -/
abbrev Client := Receiver → Bool

/-- A notice with the session in which a receiver of the client is called. -/
abbrev Arrival := Notice × Session

variable {α β : Type} {depth : Nat} {client : Client} {n : Notice}

namespace Session

/-- What listeners do when they are called, if scripts are played at most `depth` deep. -/
def acting : Nat → Nat → Emit
  | 0 => fun _ _ s => s
  | depth + 1 => act (emit depth)

/-- To emit is to call receivers that act in this way. -/
theorem emit_eq_emitWith (depth : Nat) : emit depth = emitWith (acting depth) := by
  cases depth <;> rfl

/-- In a quiet session a listener that is called leaves all as if nobody had heard the notice. -/
theorem heard_acting (depth number : Nat) {s : Session} (h : s.Quiet) :
    Heard n [] s (acting depth number n s) := by
  cases depth with
  | zero => exact heard_nil h
  | succ depth => exact heard_act (emit depth) number h

/-- Calls a receiver, and notes what arrives with this call at the client. -/
def callNoting (depth : Nat) (client : Client) (n : Notice) (r : Receiver)
    (p : List Arrival × Session) : List Arrival × Session :=
  (if client r then p.1 ++ [(n, p.2)] else p.1, call (acting depth) n r p.2)

/-- Sends a notice as a session does, and notes what arrives at the client meanwhile. -/
def emitNoting (depth : Nat) (client : Client) (n : Notice) (s : Session) :
    List Arrival × Session :=
  let p := (s.signal n.channel).deliver (callNoting depth client n) ([], s.beginEmission n)
  (p.1, p.2.endEmission)

/-- Whoever notes what arrives does not disturb the calls. -/
theorem snd_foldl_callNoting (depth : Nat) (client : Client) (n : Notice)
    (receivers : List Receiver) (p : List Arrival × Session) :
    (receivers.foldl (fun p r => callNoting depth client n r p) p).2 =
      receivers.foldl (fun s r => call (acting depth) n r s) p.2 := by
  induction receivers generalizing p with
  | nil => rfl
  | cons r rest ih => exact ih _

/-- An emission of which the arrivals are noted leaves the session that the emission leaves. -/
theorem snd_emitNoting (depth : Nat) (client : Client) (n : Notice) (s : Session) :
    (s.emitNoting depth client n).2 = emit depth n s := by
  rw [emit_eq_emitWith]
  exact congrArg endEmission (snd_foldl_callNoting depth client n _ _)

/-- The arrivals at the client while a notice is sent. -/
def arrivals (depth : Nat) (client : Client) (n : Notice) (s : Session) : List Arrival :=
  (s.emitNoting depth client n).1

/-- Where nobody acts and no table is called, every receiver of the client finds the tables as they
were at first. -/
theorem fst_foldl_callNoting (depth : Nat) (client : Client) {receivers : List Receiver}
    {s : Session} (h : s.Quiet) (hdeaf : ∀ d, .table d ∉ receivers) (arrived : List Arrival) :
    ∃ sessions : List Session,
      (receivers.foldl (fun p r => callNoting depth client n r p) (arrived, s)).1 =
        arrived ++ sessions.map (n, ·) ∧
      sessions.length = receivers.countP client ∧ ∀ s' ∈ sessions, s'.tables = s.tables := by
  induction receivers generalizing s arrived with
  | nil =>
    exact ⟨[], (List.append_nil _).symm, rfl, fun _ hs' => absurd hs' List.not_mem_nil⟩
  | cons r rest ih =>
    have hcalled := heard_call (heard_acting depth (n := n)) r h
    have hkept : (call (acting depth) n r s).tables = s.tables :=
      hcalled.tables_eq fun d hd => hdeaf d (List.mem_singleton.1 hd ▸ List.mem_cons_self)
    obtain ⟨sessions, hlater, hlength, htables⟩ :=
      ih hcalled.quiet (fun d hd => hdeaf d (List.mem_cons_of_mem _ hd))
        (if client r then arrived ++ [(n, s)] else arrived)
    rw [hkept] at htables
    have hstep : ((r :: rest).foldl (fun p r => callNoting depth client n r p) (arrived, s)).1 =
        (if client r then arrived ++ [(n, s)] else arrived) ++ sessions.map (n, ·) := hlater
    rw [hstep]
    cases hr : client r with
    | false =>
      refine ⟨sessions, rfl, ?_, htables⟩
      rw [List.countP_cons_of_neg (Bool.eq_false_iff.1 hr), hlength]
    | true =>
      refine ⟨s :: sessions, List.append_assoc .., ?_, List.forall_mem_cons.2 ⟨rfl, htables⟩⟩
      rw [List.countP_cons_of_pos hr, List.length_cons, hlength]

/-- A notice of a table arrives once at a client that has one receiver for it. -/
theorem Deaf.arrivals_eq_singleton {s : Session} (h : s.Deaf) (hquiet : s.Quiet) (depth : Nat)
    {d : TableId} (hd : n.channel.table? = some d)
    (hone : (s.signal n.channel).audience.countP client = 1) :
    ∃ s', s.arrivals depth client n = [(n, s')] ∧ s'.tables = s.tables := by
  obtain ⟨sessions, hsessions, hlength, htables⟩ :=
    fst_foldl_callNoting depth client (s := s.beginEmission n) hquiet (not_mem_audience h hd) []
  obtain ⟨s', rfl⟩ := List.length_eq_one_iff.1 (hlength.trans hone)
  exact ⟨s', hsessions, htables s' (List.mem_singleton_self s')⟩

end Session

/-- The arrivals at the client until the course ends; the rest of a course goes on with the session
that the noted emission leaves. -/
def Course.arrivals (depth : Nat) (client : Client) : Course α → List Arrival
  | ended _ _ => []
  | sends n s rest =>
    s.arrivals depth client n ++ (rest (s.emitNoting depth client n).2).arrivals depth client

/-- What arrives during two courses arrives during one and then during the other, from where the
first one ends. -/
theorem Course.arrivals_andThen (f : α → Session → Course β) (c : Course α) :
    (c.andThen f).arrivals depth client = c.arrivals depth client ++
      (f (c.finish (emit depth)).1 (c.finish (emit depth)).2).arrivals depth client := by
  induction c with
  | ended answer s => rfl
  | sends n s rest ih =>
    have hrest := ih (s.emitNoting depth client n).2
    rw [andThen, arrivals, hrest, arrivals, finish, snd_emitNoting, List.append_assoc]

/-- Where nothing is sent, nothing arrives. -/
theorem Course.arrivals_eq_nil {c : Course α} (h : c.sent (emit depth) = []) :
    c.arrivals depth client = [] := by
  cases c with
  | ended answer s => rfl
  | sends n s rest => exact absurd h (List.cons_ne_nil n _)

namespace Call

/-- The arrivals at the client during a call. -/
def arrivals (depth : Nat) (client : Client) (m : Call α) (s : Session) : List Arrival :=
  (m.start s).arrivals depth client

@[simp] theorem arrivals_pure (answer : α) (s : Session) :
    arrivals depth client (pure answer) s = [] := rfl

@[simp] theorem arrivals_bind (m : Call α) (f : α → Call β) (s : Session) :
    arrivals depth client (m >>= f) s = arrivals depth client m s ++
      arrivals depth client (f (run (emit depth) m s).1) (run (emit depth) m s).2 :=
  Course.arrivals_andThen _ (m.start s)

@[simp] theorem arrivals_read (s : Session) : arrivals depth client read s = [] := rfl

@[simp] theorem arrivals_change (f : Session → Session) (s : Session) :
    arrivals depth client (change f) s = [] := rfl

@[simp] theorem arrivals_send (n : Notice) (s : Session) :
    arrivals depth client (send n) s = s.arrivals depth client n := by
  unfold arrivals send Course.arrivals Course.arrivals
  rw [List.append_nil]

end Call

namespace Session

/-- The arrivals at the client while steps run one after the other. -/
def arrivalsAll (depth : Nat) (client : Client) : List Step → Session → List Arrival
  | [], _ => []
  | step :: rest, s =>
    (runStep step).arrivals depth client s ++ arrivalsAll depth client rest (runTop depth step s).2

/-- During a step on an open table arrives what arrives during its call. -/
theorem Calm.arrivals_calling {s : Session} {c : TableId} {t : Table} (h : s.Calm c t)
    (call : Call Answer) :
    (calling c call).arrivals depth client s = call.arrivals depth client (s.enter c) := by
  simp only [calling, arrivals_bind, arrivals_read, run_read, h.isOpen, if_true, arrivals_change,
    run_change, arrivals_pure, List.nil_append, List.append_nil]

end Session

end GroupedRows
