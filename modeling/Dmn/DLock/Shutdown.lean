import Dmn.DLock.Exclusion

/-!
# No acquirer is left behind

The destructor sets the flag and notifies without `m_mutex`. An acquirer that
has read the flag and has not yet begun to wait misses that notification.
Where no acquirer is there when the destructor notifies, a state in which no
thread can move has no waiter whose range is free and, after shutdown, none
at all, and every future has its one result.
-/

namespace Dmn.DLock

open Lib

namespace Pc

/-- Past the last load of the flag, on the way into the wait set or in it. -/
def parked : Pc → Bool
  | .wait _ | .waiting _ => true
  | _ => false

def aboutToWait : Pc → Bool
  | .wait _ => true
  | _ => false

/-- In `acquireLock`, or with its result still to be delivered. -/
def acquiring : Pc → Bool
  | .acquire _ | .check _ | .flag _ | .wait _ | .waiting _ | .relock _ | .flagAfter _ | .grant _
  | .promise _ => true
  | _ => false

def completed : Pc → Bool
  | .exiting | .exited => true
  | _ => false

def holdsWorkersMutex : Pc → Bool
  | .asyncFlag _ | .asyncReap _ _ | .asyncJoin _ _ | .asyncSpawn _ | .destroyWait _
  | .destroyJoin _ => true
  | _ => false

/-- In the destructor, past the store of the flag. -/
def closing : Pc → Bool
  | .destroyNotify | .destroyLock | .destroyWait _ | .destroyJoin _ => true
  | _ => false

/-- The worker that the thread joins, as an index into `m_async_workers`. -/
def joins : Pc → Option Nat
  | .asyncJoin _ index | .destroyJoin index => some index
  | _ => none

/-- A worker runs `acquireLock` and ends; a client does everything else. -/
def placed (t : Tid ι) (p : Pc) : Bool :=
  match t, p with
  | .client _, .promise _ | .client _, .complete | .client _, .exiting | .client _, .exited => false
  | .client _, _ => true
  | .worker _, .idle | .worker _, .complete | .worker _, .exiting | .worker _, .exited => true
  | .worker _, p => p.acquiring

/-- What `acquireLock` is to the workers: nothing. -/
structure Elsewhere (p : Pc) : Prop where
  holdsWorkersMutex : p.holdsWorkersMutex = false
  closing : p.closing = false
  joins : p.joins = none
  notify : p ≠ .destroyNotify
  store : p ≠ .destroyStore

theorem acquiring_elsewhere {p : Pc} (h : p.acquiring) : p.Elsewhere := by
  cases p <;> first | (cases h; done) | exact ⟨rfl, rfl, rfl, nofun, nofun⟩

theorem acquiring_busy {p : Pc} (h : p.acquiring) : p ≠ .idle ∧ p.completed = false := by
  cases p <;> first | (cases h; done) | exact ⟨nofun, rfl⟩

theorem placed_acquiring {p : Pc} {t : Tid ι} (h : p.acquiring)
    (hpromise : ∀ result, p ≠ .promise result) : p.placed t := by
  cases t with
  | client c => cases p <;> first | rfl | exact absurd rfl (hpromise _) | cases h
  | worker n => cases p <;> first | rfl | cases h

/-- The results a worker's future has when the worker is at a place. -/
def resolved (p : Pc) : Nat := if p.acquiring then 0 else 1

theorem joins_holdsWorkersMutex {p : Pc} (h : p.holdsWorkersMutex = false) : p.joins = none := by
  cases p <;> first | rfl | cases h

end Pc

namespace State

variable {ι : Type} {s s' : State ι} {t : Tid ι} {p old : Pc}

theorem completed_eq (s : State ι) (n : Nat) : s.completed n = (s.pc (.worker n)).completed := by
  unfold completed Pc.completed
  cases s.pc (.worker n) <;> rfl

/-- What ties the flag, the destructor and the workers together. -/
structure Live (d : String) (s : State ι) : Prop where
  inv : s.Inv d
  placed : ∀ t, (s.pc t).placed t
  workersMutex : Owned s.workersMutex fun t => (s.pc t).holdsWorkersMutex
  -- Who is still parked after shutdown is going to be notified.
  notifies : s.shuttingDown → ∀ t, (s.pc t).parked → ∃ u, s.pc u = .destroyNotify
  closing : ∀ t, (s.pc t).closing → s.shuttingDown
  destroying : s.destroying → (∃ t, s.pc t = .destroyStore) ∨ s.shuttingDown
  joins : ∀ t i, (s.pc t).joins = some i →
    ∃ n, s.asyncWorkers[i]? = some n ∧ (s.pc (.worker n)).completed
  started : ∀ n ∈ s.asyncWorkers, s.pc (.worker n) ≠ .idle
  resolved : ∀ n results, s.futures[n]? = some results →
    results.length = (s.pc (.worker n)).resolved

theorem Live.client_of (h : s.Live d) (hpc : s.pc t = old)
    (hplace : ∀ n : Nat, old.placed (.worker n : Tid ι) = false) :
    ∃ c, t = .client c := by
  cases t with
  | client c => exact ⟨c, rfl⟩
  | worker n =>
    have := h.placed (.worker n)
    rw [hpc, hplace n] at this
    cases this

theorem Live.construct (d : String) : (construct d : State ι).Live d where
  inv := .construct d
  placed t := by cases t <;> rfl
  workersMutex t := by simp [State.construct, Pc.holdsWorkersMutex]
  notifies := nofun
  closing t h := by cases h
  destroying := nofun
  joins t i h := by cases h
  started := by simp [State.construct]
  resolved := by simp [State.construct]

-- ---------------------------------------------------------------------------
-- Steps that leave the workers and the flag alone
-- ---------------------------------------------------------------------------

/-- The move of a thread is of no interest to the workers and the destructor. -/
structure Follows (s : State ι) (t : Tid ι) (old new : Pc) : Prop where
  placed : old.placed t → new.placed t
  holdsWorkersMutex : new.holdsWorkersMutex = old.holdsWorkersMutex
  parked : s.shuttingDown → new.parked → old.parked
  closing : new.closing → old.closing
  joins : ∀ i, new.joins = some i → old.joins = some i
  notify : old = .destroyNotify → new = .destroyNotify
  store : old = .destroyStore → new = .destroyStore
  worker : ∀ n, t = .worker n →
    new.resolved = old.resolved ∧ (old ≠ .idle → new ≠ .idle) ∧ (old.completed → new.completed)

theorem Follows.refl (s : State ι) (t : Tid ι) (p : Pc) : s.Follows t p p :=
  ⟨id, rfl, fun _ => id, id, fun _ => id, id, id, fun _ _ => ⟨rfl, id, id⟩⟩

theorem Follows.wake (s : State ι) (t : Tid ι) (p : Pc) : s.Follows t p (wake p) := by
  cases p with
  | waiting a =>
    exact ⟨by cases t <;> exact id, rfl, nofun, id, fun _ => id, nofun, nofun,
      fun _ _ => ⟨rfl, by simp [State.wake], id⟩⟩
  | _ => exact .refl s t _

/-- What is not the thread's p and not the table is as it was. -/
structure SameSide (s s' : State ι) : Prop where
  shuttingDown : s'.shuttingDown = s.shuttingDown
  workersMutex : s'.workersMutex = s.workersMutex
  asyncWorkers : s'.asyncWorkers = s.asyncWorkers
  destroying : s'.destroying = s.destroying
  futures : s'.futures = s.futures

theorem Live.follows (h : s.Live d) (hi : s'.Inv d) (hsame : s.SameSide s')
    (hf : ∀ u, s.Follows u (s.pc u) (s'.pc u)) : s'.Live d where
  inv := hi
  placed u := (hf u).placed (h.placed u)
  workersMutex := by
    rw [hsame.workersMutex]
    exact h.workersMutex.keep fun u => by rw [(hf u).holdsWorkersMutex]
  notifies hflag u hu := by
    rw [hsame.shuttingDown] at hflag
    obtain ⟨v, hv⟩ := h.notifies hflag u ((hf u).parked hflag hu)
    exact ⟨v, (hf v).notify hv⟩
  closing u hu := by
    rw [hsame.shuttingDown]
    exact h.closing u ((hf u).closing hu)
  destroying hd := by
    rw [hsame.destroying] at hd
    rw [hsame.shuttingDown]
    exact (h.destroying hd).imp_left fun ⟨v, hv⟩ => ⟨v, (hf v).store hv⟩
  joins u i hu := by
    rw [hsame.asyncWorkers]
    obtain ⟨n, hn, hc⟩ := h.joins u i ((hf u).joins i hu)
    exact ⟨n, hn, ((hf (.worker n)).worker n rfl).2.2 hc⟩
  started n hn := by
    rw [hsame.asyncWorkers] at hn
    exact ((hf (.worker n)).worker n rfl).2.1 (h.started n hn)
  resolved n results hn := by
    rw [hsame.futures] at hn
    rw [((hf (.worker n)).worker n rfl).1, h.resolved n results hn]

/-- The places of `acquireLock` are all alike to the workers. -/
theorem follows_acquiring (hold : old.acquiring) (hnew : p.acquiring) (hplace : p.placed t)
    (hpark : s.shuttingDown → p.parked = false) : s.Follows t old p := by
  have ho := Pc.acquiring_elsewhere hold
  have hn := Pc.acquiring_elsewhere hnew
  refine ⟨fun _ => hplace, hn.1.trans ho.1.symm, fun hflag => ?_, ?_, ?_, ?_, ?_, fun n _ => ?_⟩
  · simp [hpark hflag]
  · simp [hn.closing]
  · simp [hn.joins]
  · exact fun heq => absurd heq ho.notify
  · exact fun heq => absurd heq ho.store
  · refine ⟨by simp [Pc.resolved, hold, hnew], fun _ => (Pc.acquiring_busy hnew).1, ?_⟩
    simp [(Pc.acquiring_busy hold).2]

/-- A client goes on, with `m_workers_mutex` or without it. -/
theorem follows_client {c : ι} (hplace : p.placed (.client c))
    (hw : p.holdsWorkersMutex = old.holdsWorkersMutex) (hpark : p.parked = false)
    (hclosing : p.closing → old.closing) (hjoins : p.joins = none)
    (hnotify : old ≠ .destroyNotify) (hstore : old ≠ .destroyStore) :
    s.Follows (.client c) old p where
  placed _ := hplace
  holdsWorkersMutex := hw
  parked := by simp [hpark]
  closing := hclosing
  joins := by simp [hjoins]
  notify heq := absurd heq hnotify
  store heq := absurd heq hstore
  worker := nofun

theorem follows_return (hold : old.acquiring) : s.Follows t old (returnPc t result) := by
  cases t with
  | client c =>
    have ho := Pc.acquiring_elsewhere hold
    exact follows_client (p := .idle) rfl ho.holdsWorkersMutex.symm rfl nofun rfl ho.notify ho.store
  | worker n => exact follows_acquiring hold rfl rfl fun _ => rfl

theorem follows_enterWait (hpc : s.pc t = .wait a) : s.Follows t (s.pc t) (.waiting a) := by
  rw [hpc]
  exact ⟨by cases t <;> exact id, rfl, fun _ _ => rfl, nofun, nofun, nofun, nofun,
    fun _ _ => ⟨rfl, nofun, nofun⟩⟩

/-- Past its promise a worker runs to its end. -/
theorem follows_ending (hold : old = .complete ∧ p = .exiting ∨ old = .exiting ∧ p = .exited) :
    s.Follows t old p := by
  rcases hold with ⟨rfl, rfl⟩ | ⟨rfl, rfl⟩ <;>
    exact ⟨by cases t <;> exact id, rfl, nofun, nofun, nofun, nofun, nofun,
      fun _ _ => ⟨rfl, nofun, fun _ => rfl⟩⟩

/-- Who holds `m_workers_mutex` is the only one to join. -/
theorem Live.others_join (h : s.Live d) (ht : (s.pc t).holdsWorkersMutex) (hu : u ≠ t) :
    (s.pc u).joins = none := by
  refine Pc.joins_holdsWorkersMutex ?_
  by_contra hn
  exact hu (h.workersMutex.unique (by simpa using hn) ht)

/-- The destructor does not notify while the thread that holds `m_mutex` has
read the flag and is about to wait. -/
def NotTooEarly (s : State ι) : Action ι → Prop
  | .run t => s.pc t = .destroyNotify → ∀ u ∈ s.mutex, (s.pc u).aboutToWait = false
  | _ => True

theorem Live.not_aboutToWait (h : s.Live d) (hok : ∀ u ∈ s.mutex, (s.pc u).aboutToWait = false)
    (u : Tid ι) : (s.pc u).aboutToWait = false := by
  by_contra hn
  have hholds : (s.pc u).holdsMutex := by
    cases hp : s.pc u <;> simp_all [Pc.aboutToWait, Pc.holdsMutex]
  exact hn (hok u ((h.inv.mutex u).mpr hholds))

variable [DecidableEq ι]

theorem follows_update {pcs : Tid ι → Pc} (h : ∀ u, s.Follows u (s.pc u) (pcs u))
    (ht : s.Follows t (s.pc t) p) (u : Tid ι) :
    s.Follows u (s.pc u) (Function.update pcs t p u) := by
  by_cases hu : u = t
  · subst hu
    simpa using ht
  · simpa [hu] using h u

theorem Live.moves (h : s.Live d) (hi : s'.Inv d) (hsame : s.SameSide s')
    (hpcs : s'.pc = Function.update s.pc t p) (ht : s.Follows t (s.pc t) p) : s'.Live d :=
  h.follows hi hsame fun u => hpcs ▸ follows_update (fun v => .refl s v _) ht u

theorem Live.movesNotified (h : s.Live d) (hi : s'.Inv d) (hsame : s.SameSide s')
    (hpcs : s'.pc = Function.update (fun u => wake (s.pc u)) t p)
    (ht : s.Follows t (s.pc t) p) : s'.Live d :=
  h.follows hi hsame fun u => hpcs ▸ follows_update (fun v => .wake s v _) ht u

/-- A step inside `acquireLock`. -/
theorem Live.acquires (h : s.Live d) {mutex : Option (Tid ι)}
    (hi : ({ s with mutex := mutex }.goto t p).Inv d) (hold : (s.pc t).acquiring)
    (hnew : p.acquiring) (hpromise : ∀ result, p ≠ .promise result)
    (hpark : s.shuttingDown → p.parked = false) : ({ s with mutex := mutex }.goto t p).Live d :=
  h.moves hi ⟨rfl, rfl, rfl, rfl, rfl⟩ rfl
    (follows_acquiring hold hnew (Pc.placed_acquiring hnew hpromise) hpark)

/-- `acquireLock` returns. -/
theorem Live.returns (h : s.Live d) {mutex : Option (Tid ι)}
    (hi : ({ s with mutex := mutex }.return_ t result).Inv d) (hold : (s.pc t).acquiring) :
    ({ s with mutex := mutex }.return_ t result).Live d := by
  rw [return_eq] at hi ⊢
  exact h.moves hi ⟨rfl, rfl, rfl, rfl, rfl⟩ rfl (follows_return hold)

theorem Live.grant (h : s.Live d) (hpc : s.pc t = .grant a) (hi : (s.grant t a).Inv d) :
    (s.grant t a).Live d := by
  have hold : (s.pc t).acquiring := by rw [hpc]; rfl
  revert hi
  simp only [State.grant]
  split
  · exact fun hi => h.returns hi hold
  · intro hi
    rw [return_eq] at hi ⊢
    exact h.movesNotified hi ⟨rfl, rfl, rfl, rfl, rfl⟩ rfl (follows_return hold)

theorem Live.release (h : s.Live d) {c : ι} (hpc : s.pc (.client c) = .release requestId)
    (hi : (s.release (.client c) requestId).Inv d) : (s.release (.client c) requestId).Live d := by
  have hf : s.Follows (.client c) (s.pc (.client c)) .idle := by
    rw [hpc]
    exact follows_client rfl rfl rfl nofun rfl nofun nofun
  revert hi
  unfold State.release
  split
  · exact fun hi => h.moves hi ⟨rfl, rfl, rfl, rfl, rfl⟩ rfl hf
  · exact fun hi => h.movesNotified hi ⟨rfl, rfl, rfl, rfl, rfl⟩ rfl hf

theorem Live.workers_keep (h : s.Live d)
    (hk : p.holdsWorkersMutex = (s.pc t).holdsWorkersMutex) :
    Owned s.workersMutex fun u => (Function.update s.pc t p u).holdsWorkersMutex :=
  h.workersMutex.keep fun u => by
    by_cases hu : u = t
    · subst hu
      simp [hk]
    · simp [hu]

theorem Live.workers_take (h : s.Live d) (hm : s.workersMutex = none) (hk : p.holdsWorkersMutex) :
    Owned (some t) fun u => (Function.update s.pc t p u).holdsWorkersMutex :=
  h.workersMutex.take hm (by simpa using hk) fun u hu => by simp [hu]

theorem Live.workers_drop (h : s.Live d) (ht : (s.pc t).holdsWorkersMutex)
    (hk : p.holdsWorkersMutex = false) :
    Owned none fun u => (Function.update s.pc t p u).holdsWorkersMutex :=
  h.workersMutex.drop ht (by simpa using hk) fun u hu => by simp [hu]

/-- A client changes the list of the workers or adds a future that is ready. -/
theorem Live.client (h : s.Live d) {c : ι} {workersMutex : Option (Tid ι)} {workers : List Nat}
    {futures : List (List FutureResult)}
    (hi : ({ s with
      workersMutex := workersMutex
      asyncWorkers := workers
      futures := futures }.goto (.client c) p).Inv d)
    (hpc : s.pc (.client c) = old) (hnotify : old ≠ .destroyNotify) (hstore : old ≠ .destroyStore)
    (hplace : p.placed (.client c)) (hpark : p.parked = false)
    (hclosing : p.closing → old.closing)
    (hjoins : ∀ i, p.joins = some i → ∃ n, workers[i]? = some n ∧ (s.pc (.worker n)).completed)
    (hmutex : Owned workersMutex fun u => (Function.update s.pc (.client c) p u).holdsWorkersMutex)
    (hworkers : ∀ n ∈ workers, n ∈ s.asyncWorkers)
    (hothers : workers = s.asyncWorkers ∨ ∀ u, u ≠ .client c → (s.pc u).joins = none)
    (hfutures : ∀ n results, futures[n]? = some results →
      s.futures[n]? = some results ∨ results.length = 1 ∧ s.futures.length ≤ n) :
    ({ s with
      workersMutex := workersMutex
      asyncWorkers := workers
      futures := futures }.goto (.client c) p).Live d where
  inv := hi
  placed u := by
    by_cases hu : u = .client c
    · subst hu
      simpa using hplace
    · simpa [hu] using h.placed u
  workersMutex := hmutex
  notifies hflag u hu := by
    by_cases huc : u = .client c
    · subst huc
      simp [hpark] at hu
    · obtain ⟨v, hv⟩ := h.notifies hflag u (by simpa [huc] using hu)
      refine ⟨v, ?_⟩
      rw [pc_goto, Function.update_of_ne (by rintro rfl; exact hnotify (hpc ▸ hv))]
      exact hv
  closing u hu := by
    by_cases huc : u = .client c
    · subst huc
      exact h.closing (.client c) (hpc ▸ hclosing (by simpa using hu))
    · exact h.closing u (by simpa [huc] using hu)
  destroying hd := (h.destroying hd).imp_left fun ⟨v, hv⟩ => ⟨v, by
    rw [pc_goto, Function.update_of_ne (by rintro rfl; exact hstore (hpc ▸ hv))]
    exact hv⟩
  joins u i hu := by
    by_cases huc : u = .client c
    · subst huc
      obtain ⟨n, hn, hc⟩ := hjoins i (by simpa using hu)
      exact ⟨n, hn, by simpa using hc⟩
    · replace hu : (s.pc u).joins = some i := by simpa [huc] using hu
      rcases hothers with rfl | hnone
      · obtain ⟨n, hn, hc⟩ := h.joins u i hu
        exact ⟨n, hn, by simpa using hc⟩
      · simp [hnone u huc] at hu
  started n hn := by simpa using h.started n (hworkers n hn)
  resolved n results hn := by
    rcases hfutures n results hn with hn | ⟨hlen, hle⟩
    · simpa using h.resolved n results hn
    · rw [hlen, pc_goto, Function.update_of_ne (by simp), h.inv.unborn n hle]
      rfl

-- ---------------------------------------------------------------------------
-- The steps that matter to the workers
-- ---------------------------------------------------------------------------

theorem getElem?_append_one {l : List α} (h : (l ++ [x])[n]? = some y) :
    l[n]? = some y ∨ y = x ∧ n = l.length := by
  rcases Nat.lt_trichotomy n l.length with hn | rfl | hn
  · exact .inl (by rwa [List.getElem?_append_left hn] at h)
  · exact .inr ⟨by simpa using h.symm, rfl⟩
  · rw [List.getElem?_eq_none (by simp; omega)] at h
    cases h

/-- `acquireLockAsync` ends with a future that is ready and no worker. -/
theorem Live.failed (h : s.Live d) {c : ι} (hpc : s.pc (.client c) = old) (hnotify : old ≠ .destroyNotify)
    (hstore : old ≠ .destroyStore) (hholds : old.holdsWorkersMutex)
    (hi : ({ s with
      workersMutex := none
      futures := s.futures ++ [[result]] }.goto (.client c) .idle).Inv d) :
    ({ s with
      workersMutex := none
      futures := s.futures ++ [[result]] }.goto (.client c) .idle).Live d := by
  refine h.client hi hpc hnotify hstore rfl rfl nofun nofun (h.workers_drop (hpc ▸ hholds) rfl)
    (fun _ => id) (.inl rfl) fun n results hn => ?_
  rcases getElem?_append_one hn with hn | ⟨rfl, rfl⟩
  · exact .inl hn
  · exact .inr ⟨rfl, le_rfl⟩

/-- A started worker is at the beginning of `acquireLock`, its future empty. -/
theorem Live.spawn (h : s.Live d) {c : ι} (hpc : s.pc (.client c) = .asyncSpawn r)
    (hi : (({ s with
      workersMutex := none
      asyncWorkers := s.asyncWorkers ++ [s.futures.length]
      futures := s.futures ++ [[]] }.goto (.worker s.futures.length) (.acquire r)).goto (.client c)
        .idle).Inv d) :
    (({ s with
      workersMutex := none
      asyncWorkers := s.asyncWorkers ++ [s.futures.length]
      futures := s.futures ++ [[]] }.goto (.worker s.futures.length) (.acquire r)).goto (.client c)
        .idle).Live d := by
  have hplace : ∀ u, Function.update (Function.update s.pc (.worker s.futures.length) (.acquire r))
      (.client c) .idle u =
      if u = .client c then .idle else if u = .worker s.futures.length then .acquire r else s.pc u := by
    intro u
    simp only [Function.update_apply]
  have hidle : s.pc (.worker s.futures.length) = .idle := h.inv.unborn _ le_rfl
  have hholds : (s.pc (.client c)).holdsWorkersMutex := by rw [hpc]; rfl
  have hothers : ∀ u, u ≠ .client c → (s.pc u).joins = none := fun u hu => h.others_join hholds hu
  refine ⟨hi, ?_, ?_, ?_, ?_, ?_, ?_, ?_, ?_⟩
  · intro u
    simp only [pc_goto, hplace]
    split
    · subst u
      rfl
    · split
      · subst u
        rfl
      · exact h.placed u
  · refine h.workersMutex.drop hholds ?_ fun u hu => ?_
    · simp [Pc.holdsWorkersMutex]
    · simp only [pc_goto, hplace, if_neg hu]
      split
      · subst u
        simp [hidle, Pc.holdsWorkersMutex]
      · rfl
  · intro hflag u hu
    simp only [pc_goto, hplace] at hu ⊢
    have hpark : (s.pc u).parked := by
      split at hu
      · cases hu
      · split at hu
        · cases hu
        · exact hu
    obtain ⟨v, hv⟩ := h.notifies hflag u hpark
    refine ⟨v, ?_⟩
    rw [if_neg (by rintro rfl; simp [hpc] at hv), if_neg (by rintro rfl; simp [hidle] at hv), hv]
  · intro u hu
    simp only [pc_goto, hplace] at hu
    refine h.closing u ?_
    split at hu
    · cases hu
    · split at hu
      · cases hu
      · exact hu
  · refine fun hd => (h.destroying hd).imp_left fun ⟨v, hv⟩ => ⟨v, ?_⟩
    simp only [pc_goto, hplace]
    rw [if_neg (by rintro rfl; simp [hpc] at hv), if_neg (by rintro rfl; simp [hidle] at hv), hv]
  · intro u i hu
    simp only [pc_goto, hplace] at hu
    split at hu
    · cases hu
    · rename_i hne
      split at hu
      · cases hu
      · simp [hothers u hne] at hu
  · intro n hn
    simp only [pc_goto, hplace]
    rw [if_neg (by simp)]
    rcases List.mem_append.mp hn with hn | hn
    · split
      · simp
      · exact h.started n hn
    · rw [List.mem_singleton.mp hn, if_pos rfl]
      simp
  · intro n results hn
    simp only [pc_goto, hplace]
    rw [if_neg (by simp)]
    rcases getElem?_append_one hn with hn | ⟨rfl, rfl⟩
    · have hlt := (List.getElem?_eq_some_iff.mp hn).1
      rw [if_neg (by simpa using hlt.ne), h.resolved n results hn]
    · rw [if_pos rfl]
      rfl

/-- The worker delivers the one result of its future. -/
theorem Live.promise (h : s.Live d) (hpc : s.pc (.worker n) = .promise result)
    (hi : ((s.resolve n (.value result)).goto (.worker n) .complete).Inv d) :
    ((s.resolve n (.value result)).goto (.worker n) .complete).Live d := by
  have hplace : ∀ u, Function.update s.pc (.worker n) .complete u =
      if u = .worker n then .complete else s.pc u := fun u => Function.update_apply ..
  refine ⟨hi, ?_, ?_, ?_, ?_, ?_, ?_, ?_, ?_⟩
  · intro u
    by_cases hu : u = .worker n
    · subst hu
      simp [Pc.placed]
    · simpa [hu, resolve] using h.placed u
  · exact h.workers_keep (t := .worker n) (by rw [hpc]; rfl)
  · intro hflag u hu
    have hu : (s.pc u).parked := by
      by_cases hun : u = .worker n
      · subst hun
        simp [Pc.parked] at hu
      · simpa [hun, resolve] using hu
    obtain ⟨v, hv⟩ := h.notifies hflag u hu
    exact ⟨v, by rw [pc_goto, Function.update_of_ne (by rintro rfl; simp [hpc] at hv)]; exact hv⟩
  · intro u hu
    by_cases hun : u = .worker n
    · subst hun
      simp [Pc.closing] at hu
    · exact h.closing u (by simpa [hun, resolve] using hu)
  · refine fun hd => (h.destroying hd).imp_left fun ⟨v, hv⟩ => ⟨v, ?_⟩
    rw [pc_goto, Function.update_of_ne (by rintro rfl; simp [hpc] at hv)]
    exact hv
  · intro u i hu
    by_cases hun : u = .worker n
    · subst hun
      simp [Pc.joins] at hu
    · obtain ⟨m, hm, hc⟩ := h.joins u i (by simpa [hun, resolve] using hu)
      refine ⟨m, hm, ?_⟩
      have hne : m ≠ n := by
        rintro rfl
        simp [hpc, Pc.completed] at hc
      simpa [resolve, hne] using hc
  · intro m hm
    simp only [pc_goto, resolve, hplace]
    split
    · simp
    · exact h.started m hm
  · intro m results hm
    simp only [pc_goto, resolve, hplace] at hm ⊢
    rw [goto, List.getElem?_modify] at hm
    obtain ⟨old, hold, heq⟩ := Option.map_eq_some_iff.mp hm
    have hlen := h.resolved m old hold
    by_cases hmn : n = m
    · subst hmn
      rw [hpc] at hlen
      rw [if_pos rfl, ← heq, if_pos rfl, List.length_append, hlen]
      rfl
    · rw [if_neg hmn] at heq
      rw [if_neg (by simpa using Ne.symm hmn), ← hlen, ← heq]

theorem Live.store (h : s.Live d) (hpc : s.pc t = .destroyStore)
    (hi : ({ s with shuttingDown := true }.goto t .destroyNotify).Inv d) :
    ({ s with shuttingDown := true }.goto t .destroyNotify).Live d := by
  have hworker : ∀ n, t ≠ .worker n := by
    rintro n rfl
    have := h.placed (.worker n)
    rw [hpc] at this
    cases this
  refine ⟨hi, ?_, ?_, fun _ _ _ => ⟨t, by simp⟩, fun _ _ => rfl, fun _ => .inr rfl, ?_, ?_, ?_⟩
  · intro u
    by_cases hu : u = t
    · subst hu
      have := h.placed u
      rw [hpc] at this
      cases u <;> simp_all [Pc.placed]
    · simpa [hu] using h.placed u
  · exact h.workers_keep (by rw [hpc]; rfl)
  · intro u i hu
    by_cases hut : u = t
    · subst hut
      simp [Pc.joins] at hu
    · obtain ⟨n, hn, hc⟩ := h.joins u i (by simpa [hut] using hu)
      exact ⟨n, hn, by simpa [(hworker n).symm] using hc⟩
  · intro n hn
    simpa [(hworker n).symm] using h.started n hn
  · intro n results hn
    simpa [(hworker n).symm] using h.resolved n results hn

/-- The destructor reaches everyone in the wait set, and no one is about to
enter it. -/
theorem Live.notify (h : s.Live d) (hpc : s.pc t = .destroyNotify)
    (hno : ∀ u, (s.pc u).aboutToWait = false) (hi : (s.notifyAll.goto t .destroyLock).Inv d) :
    (s.notifyAll.goto t .destroyLock).Live d := by
  have hflag : s.shuttingDown := h.closing t (by rw [hpc]; rfl)
  obtain ⟨c, rfl⟩ := h.client_of hpc fun _ => rfl
  refine ⟨hi, ?_, ?_, ?_, fun _ _ => hflag, fun _ => .inr hflag, ?_, ?_, ?_⟩
  · intro u
    by_cases hu : u = .client c
    · subst hu
      simp [Pc.placed]
    · simpa [hu, State.notifyAll] using (Follows.wake s u _).placed (h.placed u)
  · refine h.workersMutex.keep fun u => ?_
    by_cases hu : u = .client c
    · subst hu
      simp [hpc, Pc.holdsWorkersMutex]
    · simp [hu, State.notifyAll, (Follows.wake s u _).holdsWorkersMutex]
  · intro _ u hu
    by_cases hut : u = .client c
    · subst hut
      simp [Pc.parked] at hu
    · have hno := hno u
      simp only [pc_goto, Function.update_of_ne hut, State.notifyAll] at hu
      cases hp : s.pc u <;> simp_all [Pc.parked, Pc.aboutToWait, wake]
  · intro u i hu
    by_cases hut : u = .client c
    · subst hut
      simp [Pc.joins] at hu
    · simp only [pc_goto, Function.update_of_ne hut] at hu
      obtain ⟨n, hn, hc⟩ := h.joins u i ((Follows.wake s u _).joins i hu)
      exact ⟨n, hn, by simpa [State.notifyAll] using ((Follows.wake s (.worker n) _).worker n rfl).2.2 hc⟩
  · intro n hn
    simpa [State.notifyAll] using ((Follows.wake s (.worker n) _).worker n rfl).2.1 (h.started n hn)
  · intro n results hn
    simp only [pc_goto, Function.update_of_ne (show Tid.worker n ≠ Tid.client c by simp), State.notifyAll]
    rw [((Follows.wake s (.worker n) _).worker n rfl).1]
    exact h.resolved n results hn

-- ---------------------------------------------------------------------------
-- Runs in which the destructor notifies no one too early
-- ---------------------------------------------------------------------------

theorem Live.run (h : s.Live d) (hok : s.NotTooEarly (.run t)) (hs : s.run t = some s') :
    s'.Live d := by
  have hi := h.inv.run hs
  unfold State.run at hs
  cases hpc : s.pc t with
  | idle | waiting | exited => simp [hpc] at hs
  | acquire r =>
    have hold : (s.pc t).acquiring := by rw [hpc]; rfl
    simp only [hpc] at hs
    split at hs
    · obtain rfl := Option.some.inj hs
      exact h.returns hi hold
    · split at hs
      · cases hs
      · obtain rfl := Option.some.inj hs
        exact h.acquires hi hold rfl (by rintro _ ⟨⟩) fun _ => rfl
  | check a =>
    have hold : (s.pc t).acquiring := by rw [hpc]; rfl
    simp only [hpc] at hs
    split at hs
    · obtain rfl := Option.some.inj hs
      exact h.acquires hi hold rfl (by rintro _ ⟨⟩) fun _ => rfl
    · obtain rfl := Option.some.inj hs
      exact h.acquires hi hold rfl (by rintro _ ⟨⟩) fun _ => rfl
  | flag a =>
    have hold : (s.pc t).acquiring := by rw [hpc]; rfl
    simp only [hpc] at hs
    split at hs
    · obtain rfl := Option.some.inj hs
      exact h.returns hi hold
    · rename_i hflag
      split at hs
      · obtain rfl := Option.some.inj hs
        exact h.returns hi hold
      · obtain rfl := Option.some.inj hs
        exact h.acquires hi hold rfl (by rintro _ ⟨⟩) fun hf => absurd hf hflag
  | wait a =>
    simp only [hpc] at hs
    obtain rfl := Option.some.inj hs
    exact h.moves hi ⟨rfl, rfl, rfl, rfl, rfl⟩ rfl (follows_enterWait hpc)
  | relock a =>
    have hold : (s.pc t).acquiring := by rw [hpc]; rfl
    simp only [hpc] at hs
    split at hs
    · cases hs
    · obtain rfl := Option.some.inj hs
      exact h.acquires hi hold rfl (by rintro _ ⟨⟩) fun _ => rfl
  | flagAfter a =>
    have hold : (s.pc t).acquiring := by rw [hpc]; rfl
    simp only [hpc] at hs
    split at hs
    · obtain rfl := Option.some.inj hs
      exact h.returns hi hold
    · obtain rfl := Option.some.inj hs
      exact h.acquires hi hold rfl (by rintro _ ⟨⟩) fun _ => rfl
  | grant a =>
    simp only [hpc] at hs
    obtain rfl := Option.some.inj hs
    exact h.grant hpc hi
  | release requestId =>
    obtain ⟨c, rfl⟩ := h.client_of hpc fun _ => rfl
    simp only [hpc] at hs
    split at hs
    · cases hs
    · obtain rfl := Option.some.inj hs
      exact h.release hpc hi
  | asyncLock r =>
    obtain ⟨c, rfl⟩ := h.client_of hpc fun _ => rfl
    simp only [hpc] at hs
    split at hs
    · cases hs
    · rename_i hm
      obtain rfl := Option.some.inj hs
      exact h.client hi hpc (by rintro ⟨⟩) (by rintro ⟨⟩) rfl rfl (by rintro ⟨⟩) (by rintro _ ⟨⟩)
        (h.workers_take (isNone_of_not_isSome hm) rfl) (fun _ => id) (.inl rfl) fun _ _ => .inl
  | asyncFlag r =>
    obtain ⟨c, rfl⟩ := h.client_of hpc fun _ => rfl
    simp only [hpc] at hs
    split at hs
    · obtain rfl := Option.some.inj hs
      exact h.failed hpc (by rintro ⟨⟩) (by rintro ⟨⟩) rfl hi
    · obtain rfl := Option.some.inj hs
      exact h.moves hi ⟨rfl, rfl, rfl, rfl, rfl⟩ rfl
        (hpc ▸ follows_client rfl rfl rfl (by rintro ⟨⟩) rfl (by rintro ⟨⟩) (by rintro ⟨⟩))
  | asyncReap r index =>
    obtain ⟨c, rfl⟩ := h.client_of hpc fun _ => rfl
    simp only [hpc] at hs
    split at hs
    · obtain rfl := Option.some.inj hs
      exact h.moves hi ⟨rfl, rfl, rfl, rfl, rfl⟩ rfl
        (hpc ▸ follows_client rfl rfl rfl (by rintro ⟨⟩) rfl (by rintro ⟨⟩) (by rintro ⟨⟩))
    · rename_i n hn
      split at hs
      · rename_i hc
        obtain rfl := Option.some.inj hs
        rw [completed_eq] at hc
        exact h.client hi hpc (by rintro ⟨⟩) (by rintro ⟨⟩) rfl rfl (by rintro ⟨⟩)
          (fun i heq => ⟨n, Option.some.inj heq ▸ hn, hc⟩) (h.workers_keep (by rw [hpc]; rfl))
          (fun _ => id) (.inl rfl) fun _ _ => .inl
      · obtain rfl := Option.some.inj hs
        exact h.moves hi ⟨rfl, rfl, rfl, rfl, rfl⟩ rfl
          (hpc ▸ follows_client rfl rfl rfl (by rintro ⟨⟩) rfl (by rintro ⟨⟩) (by rintro ⟨⟩))
  | asyncJoin r index =>
    obtain ⟨c, rfl⟩ := h.client_of hpc fun _ => rfl
    simp only [hpc] at hs
    split at hs
    · cases hs
    · split at hs
      · obtain rfl := Option.some.inj hs
        have hholds : (s.pc (.client c)).holdsWorkersMutex := by rw [hpc]; rfl
        exact h.client hi hpc (by rintro ⟨⟩) (by rintro ⟨⟩) rfl rfl (by rintro ⟨⟩) (by
          rintro _ ⟨⟩) (h.workers_keep (by rw [hpc]; rfl))
          (fun _ hn => (List.eraseIdx_sublist ..).subset hn) (.inr fun _ => h.others_join hholds)
          fun _ _ => .inl
      · cases hs
  | asyncSpawn r =>
    obtain ⟨c, rfl⟩ := h.client_of hpc fun _ => rfl
    simp only [hpc] at hs
    obtain rfl := Option.some.inj hs
    exact h.spawn hpc hi
  | promise result =>
    simp only [hpc] at hs
    split at hs
    · cases hs
    · obtain rfl := Option.some.inj hs
      exact h.promise hpc hi
  | complete =>
    simp only [hpc] at hs
    obtain rfl := Option.some.inj hs
    exact h.moves hi ⟨rfl, rfl, rfl, rfl, rfl⟩ rfl (follows_ending (.inl ⟨hpc, rfl⟩))
  | exiting =>
    simp only [hpc] at hs
    obtain rfl := Option.some.inj hs
    exact h.moves hi ⟨rfl, rfl, rfl, rfl, rfl⟩ rfl (follows_ending (.inr ⟨hpc, rfl⟩))
  | destroyStore =>
    simp only [hpc] at hs
    obtain rfl := Option.some.inj hs
    exact h.store hpc hi
  | destroyNotify =>
    simp only [hpc] at hs
    obtain rfl := Option.some.inj hs
    exact h.notify hpc (h.not_aboutToWait (hok hpc)) hi
  | destroyLock =>
    obtain ⟨c, rfl⟩ := h.client_of hpc fun _ => rfl
    simp only [hpc] at hs
    split at hs
    · cases hs
    · rename_i hm
      obtain rfl := Option.some.inj hs
      exact h.client hi hpc (by rintro ⟨⟩) (by rintro ⟨⟩) rfl rfl (fun _ => rfl) (by rintro _ ⟨⟩)
        (h.workers_take (isNone_of_not_isSome hm) rfl) (fun _ => id) (.inl rfl) fun _ _ => .inl
  | destroyWait index =>
    obtain ⟨c, rfl⟩ := h.client_of hpc fun _ => rfl
    have hholds : (s.pc (.client c)).holdsWorkersMutex := by rw [hpc]; rfl
    simp only [hpc] at hs
    split at hs
    · obtain rfl := Option.some.inj hs
      exact h.client hi hpc (by rintro ⟨⟩) (by rintro ⟨⟩) rfl rfl (by rintro ⟨⟩) (by
        rintro _ ⟨⟩) (h.workers_drop hholds rfl) (by rintro _ ⟨⟩)
        (.inr fun _ => h.others_join hholds) fun _ _ => .inl
    · rename_i n hn
      split at hs
      · rename_i hc
        obtain rfl := Option.some.inj hs
        rw [completed_eq] at hc
        exact h.client hi hpc (by rintro ⟨⟩) (by rintro ⟨⟩) rfl rfl (fun _ => rfl)
          (fun i heq => ⟨n, Option.some.inj heq ▸ hn, hc⟩) (h.workers_keep (by rw [hpc]; rfl))
          (fun _ => id) (.inl rfl) fun _ _ => .inl
      · cases hs
  | destroyJoin index =>
    obtain ⟨c, rfl⟩ := h.client_of hpc fun _ => rfl
    simp only [hpc] at hs
    split at hs
    · cases hs
    · split at hs
      · obtain rfl := Option.some.inj hs
        exact h.moves hi ⟨rfl, rfl, rfl, rfl, rfl⟩ rfl
          (hpc ▸ follows_client rfl rfl rfl (fun _ => rfl) rfl (by rintro ⟨⟩) (by rintro ⟨⟩))
      · cases hs

theorem Live.enter (h : s.Live d) (hi : s'.Inv d) (hs : call.enter s c p = some s')
    (hplace : p.placed (.client c)) (hw : p.holdsWorkersMutex = false) (hpark : p.parked = false)
    (hclosing : p.closing = false) (hjoins : p.joins = none) : s'.Live d := by
  unfold call.enter at hs
  split at hs
  · rename_i hidle
    obtain rfl := Option.some.inj hs
    refine h.moves hi ⟨rfl, rfl, rfl, rfl, rfl⟩ rfl ?_
    rw [hidle.1]
    exact follows_client hplace hw hpark (by simp [hclosing]) hjoins nofun nofun
  · cases hs

theorem Live.call (h : s.Live d) (hs : s.call c op = some s') : s'.Live d := by
  have hi := h.inv.call hs
  cases op with
  | acquireLock r => exact h.enter hi hs rfl rfl rfl rfl rfl
  | acquireLockAsync r => exact h.enter hi hs rfl rfl rfl rfl rfl
  | releaseLock requestId => exact h.enter hi hs rfl rfl rfl rfl rfl
  | destroy =>
    obtain ⟨s'', hs'', rfl⟩ := Option.map_eq_some_iff.mp hs
    have hl := h.enter (h.inv.enter hs'' rfl) hs'' rfl rfl rfl rfl rfl
    refine ⟨hi, hl.placed, hl.workersMutex, hl.notifies, hl.closing, fun _ => .inl ⟨.client c, ?_⟩,
      hl.joins, hl.started, hl.resolved⟩
    unfold call.enter at hs''
    split at hs''
    · rw [← Option.some.inj hs'']
      simp
    · cases hs''

theorem Live.step {x : Action ι} (h : s.Live d) (hok : s.NotTooEarly x) (hs : s.step x = some s') :
    s'.Live d := by
  have hi := h.inv.step hs
  cases x with
  | call c op => exact h.call hs
  | run t => exact h.run hok hs
  | execFails t =>
    simp only [State.step, State.execFails] at hs
    split at hs
    · rename_i hpc
      obtain ⟨c, rfl⟩ := h.client_of hpc fun _ => rfl
      obtain rfl := Option.some.inj hs
      exact h.failed hpc (by rintro ⟨⟩) (by rintro ⟨⟩) rfl hi
    · cases hs
  | spuriousWakeUp t =>
    simp only [State.step] at hs
    split at hs
    · rename_i a hpc
      obtain rfl := Option.some.inj hs
      exact h.acquires hi (by rw [hpc]; rfl) rfl (by rintro _ ⟨⟩) fun _ => rfl
    · cases hs

-- ---------------------------------------------------------------------------
-- Quiescent states
-- ---------------------------------------------------------------------------

/-- No thread can step; the next call and a spurious wake-up do not count. -/
def Quiescent (s : State ι) : Prop := ∀ t, s.run t = none

/-- Why a thread cannot step. -/
def Blocked (s : State ι) (t : Tid ι) : Pc → Prop
  | .idle | .waiting _ | .exited => True
  | .acquire _ | .relock _ | .release _ => s.mutex ≠ none
  | .asyncLock _ | .destroyLock => s.workersMutex ≠ none
  | .asyncJoin _ index | .destroyJoin index =>
    ∀ n, s.asyncWorkers[index]? = some n → s.pc (.worker n) ≠ .exited
  | .destroyWait index => ∃ n, s.asyncWorkers[index]? = some n ∧ (s.pc (.worker n)).completed = false
  | .promise _ => ∃ c, t = .client c
  | _ => False

theorem blocked_of_run (hs : s.run t = none) : s.Blocked t (s.pc t) := by
  unfold State.run at hs
  cases hpc : s.pc t with
  | idle | waiting | exited => trivial
  | acquire r =>
    simp only [hpc] at hs
    split at hs
    · cases hs
    · split at hs
      · rename_i hm
        exact fun heq => by simp [heq] at hm
      · cases hs
  | relock a | release requestId | asyncLock r | destroyLock =>
    simp only [hpc] at hs
    split at hs
    · rename_i hm
      exact fun heq => by simp [heq] at hm
    · cases hs
  | asyncJoin r index | destroyJoin index =>
    simp only [hpc] at hs
    intro n hn hexited
    simp [hn, hexited] at hs
  | destroyWait index =>
    simp only [hpc] at hs
    split at hs
    · cases hs
    · rename_i n hn
      split at hs
      · cases hs
      · rename_i hc
        rw [completed_eq] at hc
        exact ⟨n, hn, by simpa using hc⟩
  | promise result =>
    cases t with
    | client c => exact ⟨c, rfl⟩
    | worker n => simp [hpc] at hs
  | asyncReap r index =>
    simp only [hpc] at hs
    split at hs <;> cases hs
  | asyncFlag r | flagAfter a =>
    simp only [hpc] at hs
    split at hs <;> cases hs
  | flag a =>
    simp only [hpc] at hs
    split at hs
    · cases hs
    · split at hs <;> cases hs
  | check | wait | grant | asyncSpawn | complete | exiting | destroyStore | destroyNotify =>
    simp [hpc] at hs

theorem Live.mutex_free (h : s.Live d) (hq : s.Quiescent) : s.mutex = none := by
  rcases h.inv.mutex.exists_holder with hnone | ⟨t, ht⟩
  · exact hnone
  · have hb := blocked_of_run (hq t)
    cases hpc : s.pc t <;> simp_all [Pc.holdsMutex, Blocked]

/-- After shutdown the wait set is empty. -/
theorem Live.none_waits (h : s.Live d) (hq : s.Quiescent) (hflag : s.shuttingDown) (t : Tid ι) :
    s.pc t ≠ .waiting a := by
  intro hpc
  obtain ⟨u, hu⟩ := h.notifies hflag t (by rw [hpc]; rfl)
  have hb := blocked_of_run (hq u)
  rw [hu] at hb
  exact hb

/-- A worker that cannot step has ended, waits or has never been started. -/
theorem Live.worker_ended (h : s.Live d) (hq : s.Quiescent) (n : Nat) :
    s.pc (.worker n) = .idle ∨ (∃ a, s.pc (.worker n) = .waiting a) ∨ s.pc (.worker n) = .exited := by
  have hb := blocked_of_run (hq (.worker n))
  have hplace := h.placed (.worker n)
  have hm := h.mutex_free hq
  cases hpc : s.pc (.worker n) <;> simp_all [Pc.placed, Pc.acquiring, Blocked]

theorem Live.no_join (h : s.Live d) (hq : s.Quiescent) (t : Tid ι) : (s.pc t).joins = none := by
  by_contra hj
  obtain ⟨i, hi⟩ := Option.ne_none_iff_exists'.mp hj
  obtain ⟨n, hn, hc⟩ := h.joins t i hi
  have hexited : s.pc (.worker n) = .exited := by
    rcases h.worker_ended hq n with hw | ⟨a, hw⟩ | hw
    · rw [hw] at hc
      cases hc
    · rw [hw] at hc
      cases hc
    · exact hw
  have hb := blocked_of_run (hq t)
  cases hpc : s.pc t with
  | asyncJoin r j | destroyJoin j =>
    rw [hpc] at hi hb
    obtain rfl := Option.some.inj hi
    exact hb n hn hexited
  | _ =>
    rw [hpc] at hi
    cases hi

theorem Live.no_destroyWait (h : s.Live d) (hq : s.Quiescent) (t : Tid ι) :
    s.pc t ≠ .destroyWait i := by
  intro hpc
  have hflag := h.closing t (by rw [hpc]; rfl)
  have hb := blocked_of_run (hq t)
  rw [hpc] at hb
  obtain ⟨n, hn, hc⟩ := hb
  rcases h.worker_ended hq n with hw | ⟨a, hw⟩ | hw
  · exact h.started n (List.mem_of_getElem? hn) hw
  · exact h.none_waits hq hflag _ hw
  · rw [hw] at hc
    cases hc

theorem Live.workersMutex_free (h : s.Live d) (hq : s.Quiescent) : s.workersMutex = none := by
  rcases h.workersMutex.exists_holder with hnone | ⟨t, ht⟩
  · exact hnone
  · have hb := blocked_of_run (hq t)
    have hj := h.no_join hq t
    have hw := fun i => h.no_destroyWait (i := i) hq t
    cases hpc : s.pc t <;> simp_all [Pc.holdsWorkersMutex, Blocked, Pc.joins]

/-- A thread that cannot step waits for its range or is done. -/
theorem Live.done_or_waits (h : s.Live d) (hq : s.Quiescent) (t : Tid ι) :
    s.pc t = .idle ∨ (∃ a, s.pc t = .waiting a) ∨ s.pc t = .exited := by
  have hb := blocked_of_run (hq t)
  have hplace := h.placed t
  have hj := h.no_join hq t
  have hw := fun i => h.no_destroyWait (i := i) hq t
  have hm := h.mutex_free hq
  have hwm := h.workersMutex_free hq
  cases hpc : s.pc t with
  | promise result =>
    rw [hpc] at hb hplace
    obtain ⟨c, rfl⟩ := hb
    cases hplace
  | _ => simp_all [Blocked, Pc.joins]

/-- What a state in which no thread can step is to look like. -/
structure Released (s : State ι) : Prop where
  granted : ∀ t a, s.pc t = .waiting a → s.table.isGrantedForRange a.range
  shutdown : s.shuttingDown → ∀ t a, s.pc t ≠ .waiting a
  destroyed : s.destroying → (∀ t, s.pc t = .idle ∨ s.pc t = .exited) ∧
    ∀ results ∈ s.futures, results.length = 1

theorem Live.atRest (h : s.Live d) (hq : s.Quiescent) : s.Released where
  granted t a hpc := by
    have hag := h.inv.agrees t
    rw [hpc] at hag
    exact hag.2
  shutdown hflag t a := h.none_waits hq hflag t
  destroyed hd := by
    have hflag : s.shuttingDown := by
      rcases h.destroying hd with ⟨t, ht⟩ | hflag
      · have hb := blocked_of_run (hq t)
        rw [ht] at hb
        exact hb.elim
      · exact hflag
    have hdone : ∀ t, s.pc t = .idle ∨ s.pc t = .exited := fun t => by
      rcases h.done_or_waits hq t with hp | ⟨a, hp⟩ | hp
      · exact .inl hp
      · exact absurd hp (h.none_waits hq hflag t)
      · exact .inr hp
    refine ⟨hdone, fun results hr => ?_⟩
    obtain ⟨n, hn⟩ := List.mem_iff_getElem?.mp hr
    rw [h.resolved n results hn]
    rcases hdone (.worker n) with hp | hp <;> rw [hp] <;> rfl

/-- Where the destructor notifies no one too early, no acquirer is left behind. -/
theorem released (h : ReachesBy step NotTooEarly (construct d) s) (hq : s.Quiescent) :
    s.Released := by
  have hl : s.Live d := h.invariant (Live.construct d) fun hl hok hs => hl.step hok hs
  exact hl.atRest hq

-- ---------------------------------------------------------------------------
-- The destructor while a worker waits
-- ---------------------------------------------------------------------------

/-- Workers that have not been started do not count. -/
theorem quiescent_of_started (h : s.Inv d) (hclients : ∀ c, s.run (.client c) = none)
    (hworkers : ∀ n < s.futures.length, s.run (.worker n) = none) : s.Quiescent := by
  intro t
  cases t with
  | client c => exact hclients c
  | worker n =>
    rcases Nat.lt_or_ge n s.futures.length with hn | hn
    · exact hworkers n hn
    · simp [State.run, h.unborn n hn]

instance (s : State ι) (x : Action ι) : Decidable (s.NotTooEarly x) :=
  match x with
  | .run t => inferInstanceAs
      (Decidable (s.pc t = .destroyNotify → ∀ u ∈ s.mutex, (s.pc u).aboutToWait = false))
  | .call _ _ | .execFails _ | .spuriousWakeUp _ => isTrue trivial

/-- A range is taken, and a worker gets as far as the wait for it. -/
def workerAtWait : List (Action (Fin 1)) :=
  .call 0 (.acquireLock ⟨⟨0, 9⟩, {}⟩) :: List.replicate 4 (.run (.client 0)) ++
  .call 0 (.acquireLockAsync ⟨⟨0, 9⟩, {}⟩) :: List.replicate 4 (.run (.client 0)) ++
  List.replicate 3 (.run (.worker 0))

/-- The worker is in the wait set before the destructor notifies. -/
def destroyedInTime : List (Action (Fin 1)) :=
  workerAtWait ++ [.run (.worker 0), .call 0 .destroy] ++ List.replicate 3 (.run (.client 0)) ++
  List.replicate 6 (.run (.worker 0)) ++ List.replicate 3 (.run (.client 0))

theorem released_destroyedInTime :
    ((execBy step NotTooEarly (construct "default") destroyedInTime).get (by decide)).Released := by
  have hreach := ReachesBy.of_execBy (Option.some_get (x := execBy (step (ι := Fin 1)) NotTooEarly
    (construct "default") destroyedInTime) (by decide)).symm
  exact released hreach (quiescent_of_started (Inv.reached hreach.reaches) (by decide) (by decide))

/-- The worker enters the wait set after the destructor notified, and the
destructor waits for it. -/
def destroyedTooEarly : List (Action (Fin 1)) :=
  workerAtWait ++ [.call 0 .destroy] ++ List.replicate 2 (.run (.client 0)) ++
  [.run (.worker 0), .run (.client 0)]

theorem destroyedTooEarly_stuck :
    ((exec step (construct "default") destroyedTooEarly).get (by decide)).Quiescent ∧
    ¬((exec step (construct "default") destroyedTooEarly).get (by decide)).Released := by
  have hreach := ReachesBy.of_exec (Option.some_get (x := exec (step (ι := Fin 1))
    (construct "default") destroyedTooEarly) (by decide)).symm
  refine ⟨quiescent_of_started (Inv.reached hreach) (by decide) (by decide), fun h => ?_⟩
  exact absurd (h.destroyed (by decide)).2 (by decide)

end State
end Dmn.DLock
