import GroupedRows.Session.Answer
import GroupedRows.Snapshot

/-!
# Navigation through rows

The questions about rows agree with each other: positions, neighbours, ends and walks are
those of one list. A snapshot answers them in this way if no row stands twice in it.
-/

namespace GroupedRows

/-- Two rows stand next to each other, in this order. -/
def Adjacent (rows : List Row) (r s : Row) : Prop :=
  ∃ p, rows[p]? = some r ∧ rows[p + 1]? = some s

/-- The rows that are met from an answer on, if each row leads to the next by one more question,
for at most `limit` rows. -/
def follow (ask : TableQuery → Answer) (step : Row → TableQuery) : Nat → Answer → List Row
  | limit + 1, .row (some r) => r :: follow ask step limit (ask (step r))
  | _, _ => []

/-- The answers to questions about rows are those of a list without repetitions. -/
structure Navigates (ask : TableQuery → Answer) (rows : List Row) : Prop where
  listed : ask .rows = .rows rows
  nodup : rows.Nodup
  size : ask .size = .count rows.length
  /-- Every position has its row, and behind the end is an error that names the size. -/
  rowAt : ∀ p, ask (.rowAt p) =
    if h : p < rows.length then .row (some rows[p]) else .failure (.outOfRange p rows.length)
  first : ask .first = .row rows.head?
  last : ask .last = .row rows.getLast?
  positionOf : ∀ r p, ask (.positionOf r) = .position (some p) ↔ rows[p]? = some r
  next : ∀ r s, ask (.next r) = .row (some s) ↔ Adjacent rows r s
  previous : ∀ r s, ask (.previous s) = .row (some r) ↔ Adjacent rows r s
  /-- From the first row each question for the next leads through all rows, and then to none. -/
  forwards : ∀ limit, rows.length ≤ limit → follow ask .next limit (ask .first) = rows
  nextOfLast : ∀ r, rows.getLast? = some r → ask (.next r) = .row none
  backwards : ∀ limit, rows.length ≤ limit → follow ask .previous limit (ask .last) = rows.reverse
  previousOfFirst : ∀ r, rows.head? = some r → ask (.previous r) = .row none
  isFirst : ∀ r, ask (.isFirst r) = .flag (rows[0]? = some r)
  isLast : ∀ r, ask (.isLast r) = .flag (rows[rows.length - 1]? = some r)
  /-- A row that is not visible stands nowhere. -/
  hidden : ∀ r, r ∉ rows → ask (.positionOf r) = .position none ∧ ask (.next r) = .row none ∧
    ask (.previous r) = .row none ∧ ask (.isFirst r) = .flag false ∧ ask (.isLast r) = .flag false

/-- The question is about visible rows, and not about a whole walk over them. -/
def TableQuery.AboutRows : TableQuery → Prop
  | .rows | .size | .first | .last | .next _ | .previous _ | .isFirst _ | .isLast _
  | .positionOf _ | .rowAt _ => True
  | _ => False

/-- A walk depends on the answers to its steps alone. -/
theorem follow_congr {ask ask' : TableQuery → Answer} {step : Row → TableQuery}
    (h : ∀ r, ask' (step r) = ask (step r)) (limit : Nat) (a : Answer) :
    follow ask' step limit a = follow ask step limit a := by
  induction limit generalizing a with
  | zero => rfl
  | succ limit ih =>
    cases a with
    | row r => cases r with
      | none => rfl
      | some r => rw [follow, follow, h, ih]
    | _ => rfl

/-- Only the answers to questions about rows matter. -/
theorem Navigates.congr {ask ask' : TableQuery → Answer} {rows : List Row}
    (h : Navigates ask rows) (hsame : ∀ q, q.AboutRows → ask' q = ask q) :
    Navigates ask' rows where
  listed := (hsame .rows trivial).trans h.listed
  nodup := h.nodup
  size := (hsame .size trivial).trans h.size
  rowAt p := (hsame (.rowAt p) trivial).trans (h.rowAt p)
  first := (hsame .first trivial).trans h.first
  last := (hsame .last trivial).trans h.last
  positionOf r p := hsame (.positionOf r) trivial ▸ h.positionOf r p
  next r s := hsame (.next r) trivial ▸ h.next r s
  previous r s := hsame (.previous s) trivial ▸ h.previous r s
  forwards limit hlimit := by
    rw [follow_congr (fun r => hsame (.next r) trivial), hsame .first trivial]
    exact h.forwards limit hlimit
  nextOfLast r hr := (hsame (.next r) trivial).trans (h.nextOfLast r hr)
  backwards limit hlimit := by
    rw [follow_congr (fun r => hsame (.previous r) trivial), hsame .last trivial]
    exact h.backwards limit hlimit
  previousOfFirst r hr := (hsame (.previous r) trivial).trans (h.previousOfFirst r hr)
  isFirst r := (hsame (.isFirst r) trivial).trans (h.isFirst r)
  isLast r := (hsame (.isLast r) trivial).trans (h.isLast r)
  hidden r hr := by
    rw [hsame (.positionOf r) trivial, hsame (.next r) trivial, hsame (.previous r) trivial,
      hsame (.isFirst r) trivial, hsame (.isLast r) trivial]
    exact h.hidden r hr

namespace Snapshot

/-! ## Positions -/

/-- A noted position stays, and other rows stand where they first occur. -/
theorem get?_note (next : Nat) (m : OrderedMap Row Nat) (rows : List Row) (r : Row) :
    (note next m rows).get? r =
      (m.get? r).or ((rows.findIdx? (· = r)).map (next + ·)) := by
  induction rows generalizing next m with
  | nil => simp [note]
  | cons s rest ih =>
    rw [note, ih, List.findIdx?_cons]
    by_cases hs : s = r
    · subst hs
      cases hm : m.get? s with
      | none => simp [OrderedMap.contains, hm]
      | some i => simp [OrderedMap.contains, hm]
    · have hget : (if m.contains s then m else m.insert s next).get? r = m.get? r := by
        split
        · rfl
        · rw [OrderedMap.get?_insert, if_neg hs]
      simp only [hget, hs, decide_false, Bool.false_eq_true, if_false, Option.map_map,
        Function.comp_def]
      simp only [Nat.add_assoc, Nat.add_comm 1]

/-- A row is found at its first place in the list. -/
theorem position?_ofRows (rows : List Row) (r : Row) :
    (ofRows rows).position? r = rows.findIdx? (· = r) := by
  change (note 0 .empty rows).get? r = _
  rw [get?_note]
  simp

variable {rows : List Row}

/-- Where no row stands twice, each row has the position at which it stands. -/
theorem position?_eq_some_iff (h : rows.Nodup) {r : Row} {p : Nat} :
    (ofRows rows).position? r = some p ↔ rows[p]? = some r := by
  rw [position?_ofRows]
  constructor
  · intro hp
    obtain ⟨hlt, hr, _⟩ := List.findIdx?_eq_some_iff_getElem.1 hp
    rw [List.getElem?_eq_getElem hlt, of_decide_eq_true hr]
  · intro hr
    have hsome : (rows.findIdx? (· = r)).isSome = true := by
      rw [List.findIdx?_isSome, List.any_eq_true]
      exact ⟨r, List.mem_of_getElem? hr, decide_eq_true rfl⟩
    obtain ⟨q, hq⟩ := Option.isSome_iff_exists.1 hsome
    obtain ⟨hlt, hrq, _⟩ := List.findIdx?_eq_some_iff_getElem.1 hq
    have hsame : rows[q]? = rows[p]? := by
      rw [hr, List.getElem?_eq_getElem hlt, of_decide_eq_true hrq]
    rw [hq, (List.getElem?_inj hlt h).1 hsame]

/-- Where a row is not, it has no position. -/
theorem position?_of_not_mem {r : Row} (hr : r ∉ rows) : (ofRows rows).position? r = none := by
  rw [position?_ofRows, List.findIdx?_eq_none_iff]
  exact fun s hs => decide_eq_false fun e => hr (e ▸ hs)

/-! ## Neighbours -/

/-- Next to a row stands the one at the following place. -/
theorem next?_of_getElem? (h : rows.Nodup) {r : Row} {p : Nat} (hr : rows[p]? = some r) :
    (ofRows rows).next? r = rows[p + 1]? := by
  rw [next?, (position?_eq_some_iff h).2 hr]
  rfl

/-- Before a row stands the one at the preceding place, if there is one. -/
theorem previous?_of_getElem? (h : rows.Nodup) {r : Row} {p : Nat} (hr : rows[p]? = some r) :
    (ofRows rows).previous? r = if p = 0 then none else rows[p - 1]? := by
  rw [previous?, (position?_eq_some_iff h).2 hr]
  rfl

/-- Nothing stands next to a row that is not there. -/
theorem next?_of_not_mem {r : Row} (hr : r ∉ rows) : (ofRows rows).next? r = none := by
  rw [next?, position?_of_not_mem hr]
  rfl

/-- Nothing stands before a row that is not there. -/
theorem previous?_of_not_mem {r : Row} (hr : r ∉ rows) : (ofRows rows).previous? r = none := by
  rw [previous?, position?_of_not_mem hr]
  rfl

/-- The next row is the one behind it in the list. -/
theorem next?_eq_some_iff (h : rows.Nodup) {r s : Row} :
    (ofRows rows).next? r = some s ↔ Adjacent rows r s := by
  constructor
  · intro hs
    by_cases hr : r ∈ rows
    · obtain ⟨p, hp⟩ := List.mem_iff_getElem?.1 hr
      exact ⟨p, hp, next?_of_getElem? h hp ▸ hs⟩
    · rw [next?_of_not_mem hr] at hs
      exact absurd hs.symm (Option.some_ne_none s)
  · rintro ⟨p, hr, hs⟩
    rw [next?_of_getElem? h hr, hs]

/-- The previous row is the one in front of it in the list. -/
theorem previous?_eq_some_iff (h : rows.Nodup) {r s : Row} :
    (ofRows rows).previous? s = some r ↔ Adjacent rows r s := by
  constructor
  · intro hr
    by_cases hs : s ∈ rows
    · obtain ⟨p, hp⟩ := List.mem_iff_getElem?.1 hs
      rw [previous?_of_getElem? h hp] at hr
      cases p with
      | zero => exact absurd hr.symm (Option.some_ne_none r)
      | succ p => exact ⟨p, hr, hp⟩
    · rw [previous?_of_not_mem hs] at hr
      exact absurd hr.symm (Option.some_ne_none r)
  · rintro ⟨p, hr, hs⟩
    rw [previous?_of_getElem? h hs]
    exact hr

/-! ## Questions about rows -/

/-- How a snapshot answers the questions about rows. -/
def reply (v : Snapshot) : TableQuery → Answer
  | .rows => .rows v.rows
  | .size => .count v.size
  | .first => .row v.first?
  | .last => .row v.last?
  | .next r => .row (v.next? r)
  | .previous r => .row (v.previous? r)
  | .isFirst r => .flag (v.isFirst r)
  | .isLast r => .flag (v.isLast r)
  | .positionOf r => .position (v.position? r)
  | .rowAt position =>
    match v.get? position with
    | some r => .row (some r)
    | none => .failure (.outOfRange position v.size)
  | _ => .noTable

/-- From a position on, following the next rows meets all that are left. -/
theorem follow_next (h : rows.Nodup) {limit p : Nat} (hp : rows.length ≤ limit + p) :
    follow (ofRows rows).reply .next limit (.row rows[p]?) = rows.drop p := by
  induction limit generalizing p with
  | zero =>
    rw [List.drop_eq_nil_of_le (by omega)]
    rfl
  | succ limit ih =>
    cases hr : rows[p]? with
    | none => exact (List.drop_eq_nil_of_le (List.getElem?_eq_none_iff.1 hr)).symm
    | some r =>
      obtain ⟨hlt, rfl⟩ := List.getElem?_eq_some_iff.1 hr
      have hnext : (ofRows rows).reply (.next rows[p]) = .row rows[p + 1]? :=
        congrArg Answer.row (next?_of_getElem? h hr)
      rw [follow, hnext, ih (by omega), List.drop_eq_getElem_cons hlt]

/-- From a position on, following the previous rows meets all that stand before. -/
theorem follow_previous (h : rows.Nodup) {limit p : Nat} (hlimit : p ≤ limit)
    (hp : p ≤ rows.length) :
    follow (ofRows rows).reply .previous limit (.row (if p = 0 then none else rows[p - 1]?)) =
      (rows.take p).reverse := by
  induction limit generalizing p with
  | zero =>
    obtain rfl := Nat.le_zero.1 hlimit
    rfl
  | succ limit ih =>
    cases p with
    | zero => rfl
    | succ p =>
      have hr : rows[p]? = some rows[p] := List.getElem?_eq_getElem hp
      have hprevious : (ofRows rows).reply (.previous rows[p]) =
          .row (if p = 0 then none else rows[p - 1]?) :=
        congrArg Answer.row (previous?_of_getElem? h hr)
      rw [if_neg (Nat.succ_ne_zero p), Nat.add_sub_cancel, hr, follow, hprevious,
        ih (by omega) (by omega), List.take_succ_eq_append_getElem hp, List.reverse_append]
      rfl

/-- A place behind the last row is out of range, and this is told with the number of rows. -/
theorem reply_rowAt (rows : List Row) (p : Nat) :
    (ofRows rows).reply (.rowAt p) =
      if h : p < rows.length then .row (some rows[p])
      else .failure (.outOfRange p rows.length) := by
  simp only [reply, get?, rows_ofRows, size]
  split
  · rename_i r hr
    obtain ⟨hlt, rfl⟩ := List.getElem?_eq_some_iff.1 hr
    rw [dif_pos hlt]
  · rename_i hr
    rw [dif_neg (Nat.not_lt.2 (List.getElem?_eq_none_iff.1 hr))]

/-- The first row is the one at the first place. -/
theorem isFirst_ofRows (rows : List Row) (r : Row) :
    (ofRows rows).isFirst r = decide (rows[0]? = some r) := by
  rw [isFirst, first?, rows_ofRows, List.head?_eq_getElem?]

/-- The last row is the one at the last place. -/
theorem isLast_ofRows (rows : List Row) (r : Row) :
    (ofRows rows).isLast r = decide (rows[rows.length - 1]? = some r) := by
  rw [isLast, last?, rows_ofRows, List.getLast?_eq_getElem?]

/-- A snapshot in which no row stands twice answers by the list of its rows. -/
theorem navigates_reply (h : rows.Nodup) : Navigates (ofRows rows).reply rows where
  listed := rfl
  nodup := h
  size := rfl
  rowAt := reply_rowAt rows
  first := rfl
  last := rfl
  positionOf r p := by
    rw [reply, Answer.position.injEq]
    exact position?_eq_some_iff h
  next r s := by
    rw [reply, Answer.row.injEq]
    exact next?_eq_some_iff h
  previous r s := by
    rw [reply, Answer.row.injEq]
    exact previous?_eq_some_iff h
  forwards limit hlimit := by
    have hfirst : (ofRows rows).reply .first = .row rows[0]? :=
      congrArg Answer.row List.head?_eq_getElem?
    rw [hfirst, follow_next h hlimit, List.drop_zero]
  nextOfLast r hr := by
    rw [List.getLast?_eq_getElem?] at hr
    obtain ⟨hlt, _⟩ := List.getElem?_eq_some_iff.1 hr
    refine congrArg Answer.row ((next?_of_getElem? h hr).trans ?_)
    exact List.getElem?_eq_none_iff.2 (by omega)
  backwards limit hlimit := by
    have hlast : (ofRows rows).last? =
        if rows.length = 0 then none else rows[rows.length - 1]? := by
      rw [last?, rows_ofRows, List.getLast?_eq_getElem?]
      split
      · rename_i hzero
        exact List.getElem?_eq_none_iff.2 (by omega)
      · rfl
    have hreply : (ofRows rows).reply .last = _ := congrArg Answer.row hlast
    rw [hreply, follow_previous h hlimit (Nat.le_refl _), List.take_length]
  previousOfFirst r hr := by
    rw [List.head?_eq_getElem?] at hr
    exact congrArg Answer.row (previous?_of_getElem? h hr)
  isFirst r := congrArg Answer.flag (isFirst_ofRows rows r)
  isLast r := congrArg Answer.flag (isLast_ofRows rows r)
  hidden r hr := by
    have hnot : ∀ p, rows[p]? ≠ some r := fun p hp => hr (List.mem_of_getElem? hp)
    refine ⟨congrArg Answer.position (position?_of_not_mem hr),
      congrArg Answer.row (next?_of_not_mem hr), congrArg Answer.row (previous?_of_not_mem hr),
      congrArg Answer.flag ?_, congrArg Answer.flag ?_⟩
    · rw [isFirst_ofRows, decide_eq_false (hnot _)]
    · rw [isLast_ofRows, decide_eq_false (hnot _)]

end Snapshot

end GroupedRows
