import Dmn.DLock.Machine
import Dmn.Lib.Mutex

/-!
# Exclusion

The mutex is held by the thread whose place says so, and the table of every
reachable state is sorted, valid and free of overlapping grants, with counters
that count the grants.
-/

namespace Dmn.DLock

open Lib

-- ---------------------------------------------------------------------------
-- The table
-- ---------------------------------------------------------------------------

namespace TableSnapshot

/-- The granted entries of one domain, sorted and disjoint. -/
structure Exclusive (d : String) (t : TableSnapshot) : Prop where
  domain_eq : t.domain = d
  entries : ∀ e ∈ t.entries, e.granted = true ∧ e.domain = d ∧ e.range.isValid = true ∧
    e.sessionId ≠ ""
  disjoint : t.entries.Pairwise fun a b => a.range.overlaps b.range = false
  sorted : t.entries.Pairwise fun a b => a.canonicalKey ≤ b.canonicalKey

theorem noGrantedOverlap_of_disjoint {l : List Entry}
    (h : l.Pairwise fun a b => a.range.overlaps b.range = false) : noGrantedOverlap l := by
  induction l with
  | nil => rfl
  | cons e es ih =>
    obtain ⟨he, hes⟩ := List.pairwise_cons.mp h
    simp only [noGrantedOverlap, Bool.and_eq_true, List.all_eq_true]
    exact ⟨fun x hx => by simp [he x hx], ih hes⟩

theorem Exclusive.validate {t : TableSnapshot} (h : t.Exclusive d) (hd : d ≠ "") :
    t.validate := by
  simp only [TableSnapshot.validate, Bool.and_eq_true, List.all_eq_true]
  refine ⟨⟨by simp [h.domain_eq, hd], fun e he => ?_⟩, noGrantedOverlap_of_disjoint h.disjoint⟩
  obtain ⟨-, h2, h3, h4⟩ := h.entries e he
  simp [Entry.isValid, h2, h3, h4, h.domain_eq, hd]

/-- Where the range is not granted, no entry overlaps it. -/
theorem Exclusive.not_overlaps {t : TableSnapshot} (h : t.Exclusive d)
    (hfree : t.isGrantedForRange range = false) : ∀ e ∈ t.entries, e.range.overlaps range = false := by
  intro e he
  have hany := List.any_eq_false.mp hfree e he
  rw [(h.entries e he).1] at hany
  simpa using hany

theorem classify_free {t : TableSnapshot} (hd : t.domain ≠ "") {e : Entry} (he : e.domain = t.domain)
    (hv : e.range.isValid) (hs : e.sessionId ≠ "")
    (hfree : ∀ x ∈ t.entries, x.range.overlaps e.range = false) :
    t.classifyGrantCandidate e = .ok := by
  have hconf : t.entries.any (conflicts e) = false := by
    rw [List.any_eq_false]
    intro x hx
    simp [conflicts, hfree x hx]
  have hvalid : e.isValid = true := by simp [Entry.isValid, he, hd, hv, hs]
  simp [classifyGrantCandidate, hvalid, hv, he, hconf]

theorem withCandidate_free {t : TableSnapshot} (hd : t.domain ≠ "") {e : Entry}
    (he : e.domain = t.domain) (hv : e.range.isValid) (hs : e.sessionId ≠ "")
    (hfree : ∀ x ∈ t.entries, x.range.overlaps e.range = false) :
    t.withCandidate e = canonicalize { t with
      entries := t.entries ++ [e]
      tableVersion := next t.tableVersion
      nextSequence := max t.nextSequence (next e.sequence) } := by
  rw [withCandidate, classify_free hd he hv hs hfree, if_neg (by simp)]

/-- The entries with one more, in canonical order. -/
def inserted (entries : List Entry) (e : Entry) : List Entry :=
  (entries ++ [e]).insertionSort fun a b => a.canonicalKey ≤ b.canonicalKey

theorem inserted_perm (entries : List Entry) (e : Entry) :
    (inserted entries e).Perm (e :: entries) :=
  (List.perm_insertionSort ..).trans List.perm_append_comm

theorem mem_inserted : x ∈ inserted l e ↔ x = e ∨ x ∈ l := by
  rw [(inserted_perm l e).mem_iff, List.mem_cons]

theorem inserted_ne_nil : (inserted l e).isEmpty = false := by
  have := (inserted_perm l e).length_eq
  cases h : inserted l e <;> simp_all

theorem Exclusive.inserted {t t' : TableSnapshot} (h : t.Exclusive d) {e : Entry}
    (hg : e.granted) (hed : e.domain = d) (hv : e.range.isValid) (hs : e.sessionId ≠ "")
    (hfree : ∀ x ∈ t.entries, x.range.overlaps e.range = false) (ht' : t'.domain = d)
    (hent : t'.entries = TableSnapshot.inserted t.entries e) : t'.Exclusive d where
  domain_eq := ht'
  entries := by
    intro x hx
    rw [hent, mem_inserted] at hx
    rcases hx with rfl | hx
    · exact ⟨hg, hed, hv, hs⟩
    · exact h.entries x hx
  disjoint := by
    have hsymm : ∀ {a b : Entry}, a.range.overlaps b.range = false → b.range.overlaps a.range = false :=
      fun hab => Range.overlaps_comm .. ▸ hab
    rw [hent, (inserted_perm t.entries e).pairwise_iff hsymm, List.pairwise_cons]
    exact ⟨fun x hx => hsymm (hfree x hx), h.disjoint⟩
  sorted := by
    rw [hent]
    have : Std.Total fun a b : Entry => a.canonicalKey ≤ b.canonicalKey := ⟨fun _ _ => le_total ..⟩
    have : IsTrans Entry fun a b => a.canonicalKey ≤ b.canonicalKey := ⟨fun _ _ _ => le_trans⟩
    exact List.pairwise_insertionSort _ _

theorem Exclusive.sublist {t t' : TableSnapshot} (h : t.Exclusive d)
    (hd : t'.domain = t.domain) (hsub : t'.entries.Sublist t.entries) : t'.Exclusive d where
  domain_eq := hd.trans h.domain_eq
  entries e he := h.entries e (hsub.subset he)
  disjoint := h.disjoint.sublist hsub
  sorted := h.sorted.sublist hsub

end TableSnapshot

/-- As long as they do not wrap, the counters count the grants. -/
structure Counted (grants : List Grant) (t : TableSnapshot) : Prop where
  nextSequence : t.nextSequence = grants.length
  nextFencingToken : t.nextFencingToken = grants.length
  sequences : grants.map Grant.sequence = List.range' 1 grants.length
  fences : grants.map Grant.fence = List.range' 1 grants.length
  entries : ∀ e ∈ t.entries, e.sequence ≤ grants.length ∧ e.fence ≤ grants.length

theorem Counted.erase {t t' : TableSnapshot} (h : Counted grants t)
    (hseq : t'.nextSequence = t.nextSequence) (hfence : t'.nextFencingToken = t.nextFencingToken)
    (hsub : ∀ e ∈ t'.entries, e ∈ t.entries) : Counted grants t' where
  nextSequence := hseq.trans h.nextSequence
  nextFencingToken := hfence.trans h.nextFencingToken
  sequences := h.sequences
  fences := h.fences
  entries e he := h.entries e (hsub e he)

theorem next_eq (h : n + 1 < 2 ^ 64) : next n = n + 1 := Nat.mod_eq_of_lt h

theorem Counted.grant {t u : TableSnapshot} (h : Counted grants t) {e : Entry}
    (hlen : grants.length + 1 < 2 ^ 64) (hes : e.sequence = next t.nextSequence)
    (hef : e.fence = next t.nextFencingToken) (hseq : u.nextSequence = e.sequence)
    (hfence : u.nextFencingToken = e.fence) (hent : ∀ x ∈ u.entries, x = e ∨ x ∈ t.entries) :
    Counted (grants ++ [⟨requestId, range, e.sequence, e.fence⟩]) u := by
  rw [h.nextSequence, next_eq hlen] at hes
  rw [h.nextFencingToken, next_eq hlen] at hef
  refine ⟨by simp [hseq, hes], by simp [hfence, hef], ?_, ?_, ?_⟩
  · simp [h.sequences, hes, List.range'_1_concat, Nat.add_comm]
  · simp [h.fences, hef, List.range'_1_concat, Nat.add_comm]
  · intro x hx
    rw [List.length_append, List.length_singleton]
    rcases hent x hx with rfl | hx
    · omega
    · have := h.entries x hx
      omega

-- ---------------------------------------------------------------------------
-- The places of the threads
-- ---------------------------------------------------------------------------

namespace Pc

def holdsMutex : Pc → Bool
  | .check _ | .flag _ | .wait _ | .flagAfter _ | .grant _ => true
  | _ => false

/-- Not between the lock and the return of `acquireLock`. -/
def aside : Pc → Bool
  | .check _ | .flag _ | .wait _ | .waiting _ | .relock _ | .flagAfter _ | .grant _ => false
  | _ => true

/-- What an acquirer has seen of the table still holds. -/
def Agrees (t : TableSnapshot) : Pc → Prop
  | .check a | .relock a => a.range.isValid
  | .flag a | .wait a | .waiting a => a.range.isValid ∧ t.isGrantedForRange a.range
  | .flagAfter a | .grant a => a.range.isValid ∧ t.isGrantedForRange a.range = false
  | _ => True

theorem aside_holdsMutex {p : Pc} (h : p.aside) : p.holdsMutex = false := by
  cases p <;> first | rfl | cases h

theorem aside_agrees {p : Pc} {table : TableSnapshot} (h : p.aside) : p.Agrees table := by
  cases p <;> trivial

end Pc

variable {ι : Type} {s s' : State ι} {t : Tid ι} {p : Pc} {table : TableSnapshot}

namespace State

@[simp] theorem wake_holdsMutex (p : Pc) : (wake p).holdsMutex = p.holdsMutex := by
  cases p <;> rfl

/-- A woken thread expects nothing of the table, and one that waits is woken. -/
theorem wake_agrees {table' : TableSnapshot} (hpc : p.Agrees table)
    (hfree : p.holdsMutex = false) : (wake p).Agrees table' := by
  cases p <;> simp_all [Pc.Agrees, wake, Pc.holdsMutex]

/-- The result of `acquireLock` is not a conflict, if there is a domain. -/
def NoConflict (s : State ι) : Prop := s.domain ≠ "" → ∀ r ∈ s.returned, r.code ≠ .conflict

structure Inv (d : String) (s : State ι) : Prop where
  domain_eq : s.domain = d
  mutex : Owned s.mutex fun t => (s.pc t).holdsMutex
  agrees : ∀ t, (s.pc t).Agrees s.table
  exclusive : s.table.Exclusive s.domain
  counted : s.grants.length < 2 ^ 64 → Counted s.grants s.table
  noConflict : s.NoConflict
  unborn : ∀ n, s.futures.length ≤ n → s.pc (.worker n) = .idle

/-- A client, or a worker that has been started. -/
def Born (s : State ι) (t : Tid ι) : Prop := ∀ n, t = .worker n → n < s.futures.length

theorem Inv.born (h : s.Inv d) (ht : s.pc t ≠ .idle) : s.Born t := by
  rintro n rfl
  by_contra hn
  exact ht (h.unborn n (by omega))

-- ---------------------------------------------------------------------------
-- What the parts of a step keep
-- ---------------------------------------------------------------------------

theorem Inv.logged (h : s.Inv d) (hr : s.domain ≠ "" → result.code ≠ .conflict) :
    ({ s with returned := s.returned ++ [result] } : State ι).Inv d := by
  refine ⟨h.domain_eq, h.mutex, h.agrees, h.exclusive, h.counted, fun hd r hr' => ?_, h.unborn⟩
  rcases List.mem_append.mp hr' with hr' | hr'
  · exact h.noConflict hd r hr'
  · exact List.mem_singleton.mp hr' ▸ hr hd

/-- The workers, the futures and the flag play no part in the invariant. -/
theorem Inv.frame (h : s.Inv d) (flag : Bool) (workersMutex : Option (Tid ι)) (workers : List Nat)
    (destroying : Bool) (futures : List (List FutureResult))
    (hlen : s.futures.length ≤ futures.length) :
    ({ s with
      shuttingDown := flag
      workersMutex := workersMutex
      asyncWorkers := workers
      destroying := destroying
      futures := futures } : State ι).Inv d :=
  ⟨h.domain_eq, h.mutex, h.agrees, h.exclusive, h.counted, h.noConflict, fun n hn => h.unborn n (hlen.trans hn)⟩

/-- The place after the return of `acquireLock`. -/
def returnPc (t : Tid ι) (result : Result) : Pc :=
  match t with
  | .client _ => .idle
  | .worker _ => .promise result

@[simp] theorem returnPc_holdsMutex : (returnPc t result).holdsMutex = false := by
  cases t <;> rfl

theorem returnPc_agrees : (returnPc t result).Agrees table := by
  cases t <;> trivial

theorem Inv.construct (d : String) : (construct d : State ι).Inv d where
  domain_eq := rfl
  mutex t := by simp [State.construct, Pc.holdsMutex]
  agrees _ := trivial
  exclusive := ⟨rfl, by simp [State.construct], .nil, .nil⟩
  counted _ := ⟨rfl, rfl, rfl, rfl, by simp [State.construct]⟩
  noConflict _ := by simp [State.construct]
  unborn _ _ := rfl

theorem Inv.others_free (h : s.Inv d) (hk : (s.pc t).holdsMutex) :
    ∀ u, u ≠ t → (s.pc u).holdsMutex = false := fun u hu => by
  cases hu' : (s.pc u).holdsMutex
  · rfl
  · exact absurd (h.mutex.unique hu' hk) hu

theorem wake_agrees_same (h : p.Agrees table) : (wake p).Agrees table := by
  cases p
  case waiting => exact h.1
  all_goals exact h

/-- Waking the waiters changes nothing they agree on. -/
theorem Inv.notifyAll (h : s.Inv d) : s.notifyAll.Inv d where
  domain_eq := h.domain_eq
  mutex := h.mutex.keep fun u => by simp [State.notifyAll]
  agrees u := wake_agrees_same (h.agrees u)
  exclusive := h.exclusive
  counted := h.counted
  noConflict := h.noConflict
  unborn n hn := by
    show wake (s.pc _) = _
    rw [h.unborn n hn]
    rfl

variable [DecidableEq ι]

@[simp] theorem pc_goto : (s.goto t p).pc = Function.update s.pc t p := rfl

theorem agrees_update (h : ∀ u, (s.pc u).Agrees table) (ha : p.Agrees table) (u : Tid ι) :
    (Function.update s.pc t p u).Agrees table := by
  by_cases hu : u = t
  · subst hu
    simpa using ha
  · simpa [hu] using h u

theorem unborn_update {f : Tid ι → Pc} (h : ∀ n, s.futures.length ≤ n → f (.worker n) = .idle)
    (hb : s.Born t) (n : Nat) (hn : s.futures.length ≤ n) :
    Function.update f t p (.worker n) = .idle := by
  have hne : Tid.worker n ≠ t := fun heq => by
    have := hb n heq.symm
    omega
  rw [Function.update_of_ne hne]
  exact h n hn

theorem Inv.keep (h : s.Inv d) (hb : s.Born t) (hk : p.holdsMutex = (s.pc t).holdsMutex)
    (ha : p.Agrees s.table) :
    (s.goto t p).Inv d where
  domain_eq := h.domain_eq
  mutex := h.mutex.keep fun u => by
    by_cases hu : u = t
    · subst hu
      simp [hk]
    · simp [hu]
  agrees := agrees_update h.agrees ha
  exclusive := h.exclusive
  counted := h.counted
  noConflict := h.noConflict
  unborn := unborn_update h.unborn hb

/-- A step outside `acquireLock` that leaves the table alone. -/
theorem Inv.side (h : s.Inv d) (hpc : s.pc t = old) (hne : old ≠ .idle) (hold : old.aside)
    (hnew : p.aside) {flag : Bool} {workersMutex : Option (Tid ι)} {workers : List Nat}
    {destroying : Bool} {futures : List (List FutureResult)}
    (hlen : s.futures.length ≤ futures.length) :
    ({ s with
      shuttingDown := flag
      workersMutex := workersMutex
      asyncWorkers := workers
      destroying := destroying
      futures := futures }.goto t p).Inv d := by
  have hb := h.born (hpc ▸ hne)
  have hk : (s.pc t).holdsMutex = false := hpc ▸ Pc.aside_holdsMutex hold
  exact (h.frame _ _ _ _ _ hlen).keep (fun n hn => (hb n hn).trans_le hlen)
    ((Pc.aside_holdsMutex hnew).trans hk.symm) (Pc.aside_agrees hnew)

theorem Inv.take (h : s.Inv d) (hb : s.Born t) (hm : s.mutex = none) (hk : p.holdsMutex)
    (ha : p.Agrees s.table) :
    ({ s with mutex := some t }.goto t p).Inv d where
  domain_eq := h.domain_eq
  mutex := h.mutex.take hm (by simpa using hk) fun u hu => by simp [hu]
  agrees := agrees_update h.agrees ha
  exclusive := h.exclusive
  counted := h.counted
  noConflict := h.noConflict
  unborn := unborn_update h.unborn hb

theorem Inv.drop (h : s.Inv d) (hb : s.Born t) (hk : (s.pc t).holdsMutex) (hk' : p.holdsMutex = false)
    (ha : p.Agrees s.table) : (s.unlock.goto t p).Inv d where
  domain_eq := h.domain_eq
  mutex := h.mutex.drop hk (by simpa using hk') fun u hu => by simp [unlock, hu]
  agrees := agrees_update h.agrees ha
  exclusive := h.exclusive
  counted := h.counted
  noConflict := h.noConflict
  unborn := unborn_update h.unborn hb

theorem return_eq (s : State ι) (t : Tid ι) (result : Result) :
    s.return_ t result = { s with returned := s.returned ++ [result] }.goto t (returnPc t result) := by
  cases t <;> rfl

theorem Inv.returnFree (h : s.Inv d) (hb : s.Born t) (hk : (s.pc t).holdsMutex = false)
    (hr : s.domain ≠ "" → result.code ≠ .conflict) : (s.return_ t result).Inv d := by
  rw [return_eq]
  exact (h.logged hr).keep hb (by simpa using hk.symm) returnPc_agrees

theorem Inv.returnHolding (h : s.Inv d) (hb : s.Born t) (hk : (s.pc t).holdsMutex)
    (hr : s.domain ≠ "" → result.code ≠ .conflict) : (s.unlock.return_ t result).Inv d := by
  rw [return_eq]
  exact (h.logged hr).drop hb hk (by simp) returnPc_agrees

/-- Under the mutex the table changes and the waiters are woken. -/
theorem Inv.notified (h : s.Inv d) (hb : s.Born t) {g : List Grant} {b : TableSnapshot}
    (hfree : ∀ u, u ≠ t → (s.pc u).holdsMutex = false) (hk : p.holdsMutex = false)
    (ha : p.Agrees b) (hex : b.Exclusive s.domain)
    (hc : g.length < 2 ^ 64 → Counted g b) :
    ({ s with table := b, grants := g }.notifyAll.unlock.goto t p).Inv d where
  domain_eq := h.domain_eq
  mutex u := by
    refine ⟨nofun, fun hu => ?_⟩
    by_cases hut : u = t
    · subst hut
      simp [hk] at hu
    · simp [unlock, State.notifyAll, hut, hfree u hut] at hu
  agrees := by
    intro u
    show (Function.update (fun v => wake (s.pc v)) t p u).Agrees b
    by_cases hut : u = t
    · subst hut
      simpa using ha
    · simpa [hut] using wake_agrees (h.agrees u) (hfree u hut)
  exclusive := hex
  counted := hc
  noConflict := h.noConflict
  unborn := unborn_update (f := fun u => wake (s.pc u)) (fun n hn => by rw [h.unborn n hn]; rfl) hb

-- ---------------------------------------------------------------------------
-- Grants and releases
-- ---------------------------------------------------------------------------

theorem session_ne_empty (id : String) : "session-" ++ id ≠ "" := by
  intro h
  have := congrArg String.length h
  simp at this

/-- The table a grant leaves. -/
def grantedTable (s : State ι) (a : Acquire) : TableSnapshot :=
  { s.table.withCandidate (s.grantedEntry a) with
    nextSequence := next s.table.nextSequence
    nextFencingToken := next s.table.nextFencingToken }

def grantOf (s : State ι) (a : Acquire) : Grant where
  requestId := a.requestId
  range := a.range
  sequence := next s.table.nextSequence
  fence := next s.table.nextFencingToken

def grantedResult (a : Acquire) : Result := ⟨.ok, a.range, a.requestId, "granted"⟩

/-- A thread that found its range free has its entry put into the table. -/
theorem grant_eq (h : s.Inv d) (hpc : s.pc t = .grant a) (hd : s.domain ≠ "") :
    s.grant t a = { s with
      table := s.grantedTable a
      grants := s.grants ++ [s.grantOf a]
      returned := s.returned ++ [grantedResult a] }.notifyAll.unlock.goto t
        (returnPc t (grantedResult a)) ∧
    (s.grantedTable a).domain = s.domain ∧
    (s.grantedTable a).entries = TableSnapshot.inserted s.table.entries (s.grantedEntry a) := by
  have hag := h.agrees t
  rw [hpc] at hag
  have hwith := TableSnapshot.withCandidate_free (t := s.table) (e := s.grantedEntry a)
    (by rwa [h.exclusive.domain_eq]) h.exclusive.domain_eq.symm hag.1 (session_ne_empty _)
    (h.exclusive.not_overlaps hag.2)
  have hent : (s.table.withCandidate (s.grantedEntry a)).entries =
      TableSnapshot.inserted s.table.entries (s.grantedEntry a) := by
    rw [hwith]
    rfl
  refine ⟨?_, ?_, hent⟩
  · have hne : (s.table.withCandidate (s.grantedEntry a)).entries.isEmpty = false := by
      rw [hent, TableSnapshot.inserted_ne_nil]
    simp only [grant, hne, return_eq]
    rfl
  · rw [grantedTable, hwith]
    exact h.exclusive.domain_eq

theorem grant_refused (hd : s.domain = "") : s.grant t a = s.unlock.return_ t
    ⟨.conflict, a.range, a.requestId, "range already unavailable"⟩ := by
  have hbad : s.table.withCandidate (s.grantedEntry a) = {} := by
    simp [TableSnapshot.withCandidate, TableSnapshot.classifyGrantCandidate, Entry.isValid,
      grantedEntry, hd]
  simp only [State.grant, hbad]
  rfl

theorem Inv.grant (h : s.Inv d) (hpc : s.pc t = .grant a) : (s.grant t a).Inv d := by
  have hk : (s.pc t).holdsMutex := by rw [hpc]; rfl
  have hb : s.Born t := h.born (by simp [hpc])
  have hag := h.agrees t
  rw [hpc] at hag
  by_cases hd : s.domain = ""
  · -- without a domain no candidate is valid
    rw [grant_refused hd]
    exact h.returnHolding hb hk fun h => absurd hd h
  · obtain ⟨heq, hdom, hent⟩ := grant_eq h hpc hd
    rw [heq]
    refine (h.logged fun _ => by simp [grantedResult]).notified hb (h.others_free hk) (by simp)
      returnPc_agrees ?_ ?_
    · exact h.exclusive.inserted (e := s.grantedEntry a) rfl rfl hag.1 (session_ne_empty _)
        (h.exclusive.not_overlaps hag.2) hdom hent
    · intro hlen
      rw [List.length_append, List.length_singleton] at hlen
      have hlen' : s.grants.length < 2 ^ 64 := by omega
      refine (h.counted hlen').grant (u := s.grantedTable a) (e := s.grantedEntry a) hlen rfl rfl rfl
        rfl fun x hx => ?_
      rwa [hent, TableSnapshot.mem_inserted] at hx

theorem Inv.release (h : s.Inv d) (hpc : s.pc t = .release requestId) (hm : s.mutex = none) :
    (s.release t requestId).Inv d := by
  have hk : (s.pc t).holdsMutex = false := by rw [hpc]; rfl
  have hb : s.Born t := h.born (by simp [hpc])
  unfold State.release
  split
  · exact h.keep hb hk.symm trivial
  · rename_i e entries hrem
    obtain ⟨e', -, heq⟩ := Option.map_eq_some_iff.mp hrem
    have hsub : entries.Sublist s.table.entries := by
      rw [← (Prod.mk.inj heq).2]
      exact List.eraseP_sublist
    have hn := h.notified (b := (s.setEntries entries).table) hb (p := .idle)
      (g := s.grants) (fun u _ => by simpa using h.mutex.free hm) rfl trivial
      (h.exclusive.sublist rfl hsub) fun hlen =>
        (h.counted hlen).erase rfl rfl fun e he => hsub.subset he
    have hfree : ∀ m, m = none → ({ s with
        table := (s.setEntries entries).table
        mutex := m }.notifyAll.goto t .idle).Inv d := by
      rintro _ rfl
      exact hn
    exact hfree _ hm

/-- `acquireLockAsync` starts a worker that no step has moved yet. -/
theorem Inv.spawn (h : s.Inv d) (hpc : s.pc t = .asyncSpawn r) :
    (({ s with
      workersMutex := none
      asyncWorkers := s.asyncWorkers ++ [s.futures.length]
      futures := s.futures ++ [[]] }.goto (.worker s.futures.length) (.acquire r)).goto t .idle).Inv d := by
  have hidle : s.pc (.worker s.futures.length) = .idle := h.unborn _ le_rfl
  have hne : t ≠ .worker s.futures.length := by
    rintro rfl
    simp [hpc] at hidle
  have hworker := (h.frame s.shuttingDown none (s.asyncWorkers ++ [s.futures.length]) s.destroying
    (s.futures ++ [[]]) (by simp)).keep (t := .worker s.futures.length) (p := .acquire r)
    (fun n hn => by simp [← Tid.worker.inj hn]) (by simp [hidle, Pc.holdsMutex]) trivial
  have ht : (Function.update s.pc (.worker s.futures.length) (.acquire r) : Tid ι → Pc) t =
      .asyncSpawn r := by
    rw [Function.update_of_ne hne, hpc]
  exact hworker.side ht (by simp) rfl rfl le_rfl

-- ---------------------------------------------------------------------------
-- Every step keeps the invariant
-- ---------------------------------------------------------------------------

theorem isNone_of_not_isSome {o : Option α} (h : ¬o.isSome = true) : o = none := by
  cases o <;> simp_all

theorem Inv.run (h : s.Inv d) (hs : s.run t = some s') : s'.Inv d := by
  have hag := h.agrees t
  have hb : s.pc t ≠ .idle → s.Born t := h.born
  unfold State.run at hs
  cases hpc : s.pc t with
  | idle => simp [hpc] at hs
  | acquire r =>
    have hk : (s.pc t).holdsMutex = false := by rw [hpc]; rfl
    replace hb := hb (by simp [hpc])
    simp only [hpc] at hs
    split at hs
    · obtain rfl := Option.some.inj hs
      exact h.returnFree hb hk fun _ => by simp
    · split at hs
      · cases hs
      · rename_i hv hm
        obtain rfl := Option.some.inj hs
        exact h.take hb (isNone_of_not_isSome hm) rfl (show r.range.isValid = true by simpa using hv)
  | check a =>
    rw [hpc] at hag
    replace hb := hb (by simp [hpc])
    simp only [hpc] at hs
    obtain rfl := Option.some.inj hs
    split
    · rename_i hg
      exact h.keep hb (by rw [hpc]; rfl) ⟨hag, hg⟩
    · rename_i hg
      exact h.keep hb (by rw [hpc]; rfl) ⟨hag, by simpa using hg⟩
  | flag a =>
    have hk : (s.pc t).holdsMutex := by rw [hpc]; rfl
    rw [hpc] at hag
    replace hb := hb (by simp [hpc])
    simp only [hpc] at hs
    split at hs
    · obtain rfl := Option.some.inj hs
      exact h.returnHolding hb hk fun _ => by simp
    · split at hs
      · obtain rfl := Option.some.inj hs
        exact h.returnHolding hb hk fun _ => by simp
      · obtain rfl := Option.some.inj hs
        exact h.keep hb (by rw [hpc]; rfl) hag
  | wait a =>
    rw [hpc] at hag
    replace hb := hb (by simp [hpc])
    simp only [hpc] at hs
    obtain rfl := Option.some.inj hs
    exact h.drop hb (by rw [hpc]; rfl) rfl hag
  | waiting a => simp [hpc] at hs
  | relock a =>
    rw [hpc] at hag
    replace hb := hb (by simp [hpc])
    simp only [hpc] at hs
    split at hs
    · cases hs
    · rename_i hm
      obtain rfl := Option.some.inj hs
      exact h.take hb (isNone_of_not_isSome hm) rfl hag
  | flagAfter a =>
    have hk : (s.pc t).holdsMutex := by rw [hpc]; rfl
    rw [hpc] at hag
    replace hb := hb (by simp [hpc])
    simp only [hpc] at hs
    split at hs
    · obtain rfl := Option.some.inj hs
      exact h.returnHolding hb hk fun _ => by simp
    · obtain rfl := Option.some.inj hs
      exact h.keep hb (by rw [hpc]; rfl) hag
  | grant a =>
    simp only [hpc] at hs
    obtain rfl := Option.some.inj hs
    exact h.grant hpc
  | release requestId =>
    simp only [hpc] at hs
    split at hs
    · cases hs
    · rename_i hm
      obtain rfl := Option.some.inj hs
      exact h.release hpc (isNone_of_not_isSome hm)
  | asyncLock r =>
    simp only [hpc] at hs
    split at hs
    · cases hs
    · obtain rfl := Option.some.inj hs
      exact h.side hpc (by simp) rfl rfl le_rfl
  | asyncFlag r =>
    simp only [hpc] at hs
    split at hs
    · obtain rfl := Option.some.inj hs
      exact h.side hpc (by simp) rfl rfl (by simp)
    · obtain rfl := Option.some.inj hs
      exact h.side hpc (by simp) rfl rfl le_rfl
  | asyncReap r index =>
    simp only [hpc] at hs
    split at hs
    · obtain rfl := Option.some.inj hs
      exact h.side hpc (by simp) rfl rfl le_rfl
    · obtain rfl := Option.some.inj hs
      split
      · exact h.side hpc (by simp) rfl rfl le_rfl
      · exact h.side hpc (by simp) rfl rfl le_rfl
  | asyncJoin r index =>
    simp only [hpc] at hs
    split at hs
    · cases hs
    · split at hs
      · obtain rfl := Option.some.inj hs
        exact h.side hpc (by simp) rfl rfl le_rfl
      · cases hs
  | asyncSpawn r =>
    simp only [hpc] at hs
    obtain rfl := Option.some.inj hs
    exact h.spawn hpc
  | promise result =>
    simp only [hpc] at hs
    split at hs
    · cases hs
    · obtain rfl := Option.some.inj hs
      exact h.side hpc (by simp) rfl rfl (by simp)
  | complete =>
    simp only [hpc] at hs
    obtain rfl := Option.some.inj hs
    exact h.side hpc (by simp) rfl rfl le_rfl
  | exiting =>
    simp only [hpc] at hs
    obtain rfl := Option.some.inj hs
    exact h.side hpc (by simp) rfl rfl le_rfl
  | exited => simp [hpc] at hs
  | destroyStore =>
    simp only [hpc] at hs
    obtain rfl := Option.some.inj hs
    exact h.side hpc (by simp) rfl rfl le_rfl
  | destroyNotify =>
    simp only [hpc] at hs
    obtain rfl := Option.some.inj hs
    have hwake : s.notifyAll.pc t = .destroyNotify := by simp only [State.notifyAll, hpc]; rfl
    exact h.notifyAll.side hwake (by simp) rfl rfl le_rfl
  | destroyLock =>
    simp only [hpc] at hs
    split at hs
    · cases hs
    · obtain rfl := Option.some.inj hs
      exact h.side hpc (by simp) rfl rfl le_rfl
  | destroyWait index =>
    simp only [hpc] at hs
    split at hs
    · obtain rfl := Option.some.inj hs
      exact h.side hpc (by simp) rfl rfl le_rfl
    · split at hs
      · obtain rfl := Option.some.inj hs
        exact h.side hpc (by simp) rfl rfl le_rfl
      · cases hs
  | destroyJoin index =>
    simp only [hpc] at hs
    split at hs
    · cases hs
    · split at hs
      · obtain rfl := Option.some.inj hs
        exact h.side hpc (by simp) rfl rfl le_rfl
      · cases hs

theorem Inv.enter (h : s.Inv d) (hs : call.enter s c p = some s') (hp : p.aside) : s'.Inv d := by
  unfold call.enter at hs
  split at hs
  · rename_i hidle
    obtain rfl := Option.some.inj hs
    exact h.keep (fun n hn => by cases hn) (by rw [hidle.1, Pc.aside_holdsMutex hp]; rfl)
      (Pc.aside_agrees hp)
  · cases hs

theorem Inv.call (h : s.Inv d) (hs : s.call c op = some s') : s'.Inv d := by
  cases op with
  | acquireLock r => exact h.enter hs rfl
  | acquireLockAsync r => exact h.enter hs rfl
  | releaseLock requestId => exact h.enter hs rfl
  | destroy =>
    obtain ⟨s'', hs'', rfl⟩ := Option.map_eq_some_iff.mp hs
    exact (h.enter hs'' rfl).frame _ _ _ _ _ le_rfl

theorem Inv.execFails (h : s.Inv d) (hs : s.execFails t = some s') : s'.Inv d := by
  unfold State.execFails at hs
  split at hs
  · rename_i hpc
    obtain rfl := Option.some.inj hs
    exact h.side hpc (by simp) rfl rfl (by simp)
  · cases hs

theorem Inv.step (h : s.Inv d) (hs : s.step a = some s') : s'.Inv d := by
  cases a with
  | call c op => exact h.call hs
  | run t => exact h.run hs
  | execFails t => exact h.execFails hs
  | spuriousWakeUp t =>
    simp only [State.step] at hs
    split at hs
    · rename_i a hpc
      obtain rfl := Option.some.inj hs
      have hag := h.agrees t
      rw [hpc] at hag
      exact h.keep (h.born (by simp [hpc])) (by rw [hpc]; rfl) hag.1
    · cases hs

theorem Inv.reached (h : Reaches State.step (State.construct d) s) : s.Inv d :=
  h.invariant (.construct d) fun h _ hs => h.step hs

-- ---------------------------------------------------------------------------
-- Range mutual exclusion
-- ---------------------------------------------------------------------------

/-- What the table and the run promise as long as the counters do not wrap. -/
structure RangeExclusion (s : State ι) : Prop where
  validate : s.table.validate
  sorted : s.table.entries.Pairwise fun a b => a.canonicalKey ≤ b.canonicalKey
  bounded : ∀ e ∈ s.table.entries,
    e.sequence ≤ s.table.nextSequence ∧ e.fence ≤ s.table.nextFencingToken
  sequences : s.grants.Pairwise fun a b => a.sequence < b.sequence
  fences : s.grants.Pairwise fun a b => a.fence < b.fence
  noConflict : ∀ r ∈ s.returned, r.code ≠ .conflict

theorem pairwise_of_map_range' {l : List α} {f : α → Nat} (h : l.map f = List.range' 1 l.length) :
    l.Pairwise fun a b => f a < f b := by
  rw [← List.pairwise_map (f := f) (R := (· < ·)), h]
  exact List.pairwise_lt_range'

/-- In every reachable state of a lock with a domain the granted ranges are
disjoint and the bookkeeping is exact. -/
theorem rangeExclusion (hd : d ≠ "") (h : Reaches step (State.construct d) s)
    (hlen : s.grants.length < 2 ^ 64) : s.RangeExclusion := by
  have hi := Inv.reached h
  have hdom : s.domain ≠ "" := hi.domain_eq.symm ▸ hd
  have hc := hi.counted hlen
  exact {
    validate := hi.exclusive.validate hdom
    sorted := hi.exclusive.sorted
    bounded := fun e he => by
      rw [hc.nextSequence, hc.nextFencingToken]
      exact hc.entries e he
    sequences := pairwise_of_map_range' hc.sequences
    fences := pairwise_of_map_range' hc.fences
    noConflict := hi.noConflict hdom }

/-- One lock is taken, a second one next to it, and the first is given back. -/
def takenAndReleased : List (Action (Fin 2)) :=
  .call 0 (.acquireLock ⟨⟨0, 9⟩, {}⟩) :: List.replicate 4 (.run (.client 0)) ++
  .call 1 (.acquireLock ⟨⟨20, 29⟩, {}⟩) :: List.replicate 4 (.run (.client 1)) ++
  [.call 0 (.releaseLock "req-1"), .run (.client 0)]

theorem rangeExclusion_takenAndReleased :
    ((exec step (construct "default") takenAndReleased).get (by decide)).RangeExclusion :=
  rangeExclusion (d := "default") (by decide) (.of_exec (Option.some_get _).symm) (by decide)

end State
end Dmn.DLock
