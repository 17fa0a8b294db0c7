import Mathlib.Data.List.Induction
import Stepwise.History

set_option autoImplicit false

/-! # The history as a log of records

A history is used through five calls: two change it, three look at it (`HistoryCall`). However they
are mixed, the history holds the newest of the records that were made since it was last cleared
(`entries_afterCalls`). One step of this is `newestSince_concat` for the log and `entries_record`
for the history; the run follows by induction on the calls, the last one first.
-/

namespace Stepwise

/-! ## What is kept of a sequence of events -/

/-- What is kept of the events behind the last one that resets, newest first. -/
def newestSince {α β : Type} (isReset : α → Bool) (kept? : α → Option β) (events : List α) :
    List β :=
  (events.reverse.takeWhile fun event => !isReset event).filterMap kept?

/-- An event that resets leaves nothing, and any other one is put in front if it is kept. -/
theorem newestSince_concat {α β : Type} (isReset : α → Bool) (kept? : α → Option β)
    (events : List α) (event : α) :
    newestSince isReset kept? (events ++ [event]) =
      if isReset event then [] else (kept? event).toList ++ newestSince isReset kept? events := by
  unfold newestSince
  rw [List.reverse_append, List.reverse_singleton, List.singleton_append]
  split
  · next hreset => rw [List.takeWhile_cons_of_neg (by simp [hreset]), List.filterMap_nil]
  · next hreset =>
      rw [List.takeWhile_cons_of_pos (by simp [hreset]), List.filterMap_cons]
      cases kept? event <;> rfl

/-! ## Calls -/

/-- A call on a history. -/
inductive HistoryCall
  | record (query : String) (trace : Trace)
  | clear
  | select (index : Nat)
  | list
  | size
  deriving DecidableEq

/-- What a call returns. -/
inductive HistoryAnswer
  | done
  | selected (trace : Option Trace)
  | listed (entries : List HistoryEntry)
  | counted (size : Nat)
  deriving DecidableEq

namespace HistoryCall

/-- The query and the trace that the call records, if it records something. -/
def recorded? : HistoryCall → Option (String × Trace)
  | record query trace => some (query, trace)
  | _ => none

/-- The call looks at the history only. -/
def isReading : HistoryCall → Bool
  | record _ _ | clear => false
  | select _ | list | size => true

end HistoryCall

namespace History

/-- What a call returns, and the history after it. -/
def perform (h : History) : HistoryCall → HistoryAnswer × History
  | .record query trace => (.done, h.record query trace)
  | .clear => (.done, h.clear)
  | .select index => (.selected (h.select index), h)
  | .list => (.listed h.entries, h)
  | .size => (.counted h.size, h)

/-- The history after some calls. -/
def afterCalls (h : History) (calls : List HistoryCall) : History :=
  calls.foldl (fun h call => (h.perform call).2) h

@[simp] theorem afterCalls_concat (h : History) (calls : List HistoryCall) (call : HistoryCall) :
    h.afterCalls (calls ++ [call]) = ((h.afterCalls calls).perform call).2 := by
  simp [afterCalls]

theorem perform_of_isReading {call : HistoryCall} (hcall : call.isReading = true) (h : History) :
    (h.perform call).2 = h := by
  cases call with
  | record | clear => cases hcall
  | select | list | size => rfl

end History

/-! ## The log -/

/-- The records made since the last call that clears, newest first. -/
def recordsSinceClear (calls : List HistoryCall) : List (String × Trace) :=
  newestSince (· = .clear) HistoryCall.recorded? calls

namespace History

/-- A history that held the newest of some records holds the newest of them and a further one. -/
theorem entries_record {h : History} {log : List HistoryEntry} (query : String) (trace : Trace)
    (hlog : h.entries = log.take capacity) :
    (h.record query trace).entries = (.ofTrace query trace :: log).take capacity := by
  show (HistoryEntry.ofTrace query trace :: h.entries).take capacity = _
  rw [hlog, show capacity = 9 + 1 from rfl, List.take_succ_cons, List.take_succ_cons,
    List.take_take]
  rfl

/-- A history holds the newest of the records since the last time it was cleared. -/
theorem entries_afterCalls (calls : List HistoryCall) :
    (empty.afterCalls calls).entries =
      ((recordsSinceClear calls).map fun r => .ofTrace r.1 r.2).take capacity := by
  -- the last call is split off: it acts on the history that the calls before it left
  induction calls using List.reverseRecOn with
  | nil => rfl
  | append_singleton calls call ih =>
      rw [afterCalls_concat, recordsSinceClear, newestSince_concat]
      cases call with
      | record query trace => exact entries_record query trace ih
      | clear => rfl
      | select | list | size => exact ih

/-- Looking at the history between the other calls makes no difference. -/
theorem afterCalls_filter (h : History) (calls : List HistoryCall) :
    h.afterCalls (calls.filter fun call => !call.isReading) = h.afterCalls calls := by
  induction calls using List.reverseRecOn with
  | nil => rfl
  | append_singleton calls call ih =>
      rw [afterCalls_concat, List.filter_append]
      cases hcall : call.isReading with
      | true =>
          rw [perform_of_isReading hcall, List.filter_cons_of_neg (by simp [hcall]),
            List.filter_nil, List.append_nil, ih]
      | false =>
          rw [List.filter_cons_of_pos (by simp [hcall]), List.filter_nil, afterCalls_concat, ih]

/-- What can be seen of a history that holds the newest ten records of a log. -/
structure IsLog (h : History) (log : List (String × Trace)) : Prop where
  list : h.entries = (log.take 10).map fun r =>
    { query := r.1, title := r.2.title, steps := r.2.steps }
  size_le : h.size ≤ 10
  select_lt : ∀ index < h.size, ∃ r, log[index]? = some r ∧ h.select index = some r.2
  select_ge : ∀ index, h.size ≤ index → h.select index = none

theorem isLog_of_entries {h : History} {log : List (String × Trace)}
    (hentries : h.entries = (log.map fun r => .ofTrace r.1 r.2).take capacity) :
    h.IsLog log := by
  have hsize : h.size = min 10 log.length := by
    rw [size, hentries, List.length_take, List.length_map]
    rfl
  -- the entry of a record gives the trace of the record back
  have hselect (index : Nat) :
      h.select index = if index < 10 then log[index]?.map Prod.snd else none := by
    rw [select, get?, hentries, List.getElem?_take, List.getElem?_map]
    split
    · rw [if_pos (by assumption), Option.map_map]
      rfl
    · rw [if_neg (by assumption)]
      rfl
  refine ⟨?_, ?_, fun index hindex => ?_, fun index hindex => ?_⟩
  · rw [hentries, ← List.map_take]
    rfl
  · omega
  · have hlt : index < log.length := by omega
    rw [hselect, if_pos (by omega), List.getElem?_eq_getElem hlt]
    exact ⟨_, rfl, rfl⟩
  · rw [hselect]
    split
    · rw [List.getElem?_eq_none (by omega), Option.map_none]
    · rfl

/-- After any calls on an empty history, the history shows the newest ten records since it was
last cleared. The calls that look at it, wherever they stand, leave it as it is. -/
theorem afterCalls_isLog (calls : List HistoryCall) :
    (empty.afterCalls calls).IsLog (recordsSinceClear calls) ∧
    (∀ call : HistoryCall, call.isReading = true →
      ((empty.afterCalls calls).perform call).2 = empty.afterCalls calls) ∧
    empty.afterCalls (calls.filter fun call => !call.isReading) = empty.afterCalls calls :=
  ⟨isLog_of_entries (entries_afterCalls calls), fun _ hcall => perform_of_isReading hcall _,
    afterCalls_filter empty calls⟩

/-- Eleven records, with a look at the entries before the last one. -/
def elevenRecords : List HistoryCall :=
  (List.range 10).map (fun n => .record (toString n) ⟨toString n, []⟩) ++
    [.list, .record "10" ⟨"10", []⟩]

/-- The eleventh record lets the first one go: the oldest entry is the second record. -/
theorem afterCalls_isLog_eleven :
    (9 < (empty.afterCalls elevenRecords).size ∧
      (empty.afterCalls elevenRecords).select 9 = some ⟨"1", []⟩) ∧
    ((empty.afterCalls elevenRecords).size ≤ 10 ∧
      (empty.afterCalls elevenRecords).select 10 = none) ∧
    HistoryCall.list.isReading = true ∧
    ((empty.afterCalls elevenRecords).perform .list).2 = empty.afterCalls elevenRecords := by
  obtain ⟨hlog, hreading, -⟩ := afterCalls_isLog elevenRecords
  have hsize : 9 < (empty.afterCalls elevenRecords).size := by decide +kernel
  obtain ⟨r, hr, hselect⟩ := hlog.select_lt 9 hsize
  have hrecord : (recordsSinceClear elevenRecords)[9]? = some ("1", ⟨"1", []⟩) := by
    decide +kernel
  obtain rfl := Option.some.inj (hr.symm.trans hrecord)
  exact ⟨⟨hsize, hselect⟩, ⟨hlog.size_le, hlog.select_ge 10 hlog.size_le⟩, rfl, hreading .list rfl⟩

end History

end Stepwise
