import Mathlib.Data.List.Infix
import Mathlib.Logic.Basic

/-!
# Matching signals

The rule of a subscription, as `makeMatchRule` writes it, and two readers of
it: the bus daemon, and `filterMessage`, which compares strings. A `nullptr`
of libdbus is `none`.
-/

namespace Dmn.Dbus

/-- `Dmn_DbusSignalMatch` -/
structure SignalMatch where
  sender : String := ""
  interface : String
  member : String
  path : String := ""
  pathNamespace : String := ""
  deriving DecidableEq

/-- What `subscribe` has checked. The names are valid too, of which nothing is needed. -/
structure SignalMatch.Valid (match_ : SignalMatch) : Prop where
  interface : match_.interface ≠ ""
  member : match_.member ≠ ""
  path : match_.path = "" ∨ match_.pathNamespace = ""

/-- An entry of `m_subscriptions`, without its callback. -/
structure Subscription where
  id : Nat
  criteria : SignalMatch
  valid : criteria.Valid

/-- What is read of a signal. -/
structure SignalHeader where
  interface : Option String
  member : Option String
  sender : Option String
  path : Option String

-- ---------------------------------------------------------------------------
-- The rule
-- ---------------------------------------------------------------------------

inductive Clause
  | interface (name : String)
  | member (name : String)
  | sender (name : String)
  | path (name : String)
  | pathNamespace (name : String)
  deriving DecidableEq

def Clause.text : Clause → String
  | .interface name => "interface='" ++ name ++ "'"
  | .member name => "member='" ++ name ++ "'"
  | .sender name => "sender='" ++ name ++ "'"
  | .path name => "path='" ++ name ++ "'"
  | .pathNamespace name => "path_namespace='" ++ name ++ "'"

namespace SignalMatch

variable (m : SignalMatch)

def clauses : List Clause :=
  [.interface m.interface, .member m.member] ++ (if m.sender ≠ "" then [.sender m.sender] else []) ++
    (if m.path ≠ "" then [.path m.path] else []) ++
    (if m.pathNamespace ≠ "" then [.pathNamespace m.pathNamespace] else [])

def makeMatchRule : String := m.clauses.foldl (fun rule clause => rule ++ "," ++ clause.text) "type='signal'"

end SignalMatch

-- ---------------------------------------------------------------------------
-- The daemon
-- ---------------------------------------------------------------------------

/-- A unique name is its own owner. -/
def ownerOf (owner : String → Option String) (name : String) : Option String :=
  if name.toList.head? = some ':' then some name else owner name

/-- The path itself, or one below it. -/
def Within (pathNamespace path : String) : Prop :=
  path = pathNamespace ∨ (pathNamespace.toList ++ ['/']) <+: path.toList ∨ pathNamespace = "/" ∧
    ['/'] <+: path.toList

instance (pathNamespace path : String) : Decidable (Within pathNamespace path) :=
  inferInstanceAs (Decidable (_ ∨ _ ∨ _ ∧ _))

/-- The daemon finds that the signal meets the clause. -/
def Clause.Accepts (owner : String → Option String) (signal : SignalHeader) : Clause → Prop
  | .interface name => signal.interface = some name
  | .member name => signal.member = some name
  | .sender name => ∃ sender ∈ signal.sender, ownerOf owner name = some sender
  | .path name => signal.path = some name
  | .pathNamespace name => ∃ path ∈ signal.path, Within name path

/-- The signal matches the rule. -/
def SignalMatch.Accepts (m : SignalMatch) (owner : String → Option String) (signal : SignalHeader) : Prop :=
  ∀ clause ∈ m.clauses, clause.Accepts owner signal

-- ---------------------------------------------------------------------------
-- The client
-- ---------------------------------------------------------------------------

/-- The condition under which `filterMessage` does not skip a subscription. -/
def SignalMatch.selects (m : SignalMatch) (signal : SignalHeader) : Bool :=
  !(m.interface ≠ signal.interface.getD "" || m.member ≠ signal.member.getD "" ||
    (m.sender ≠ "" && m.sender.toList.head? = some ':' && m.sender ≠ signal.sender.getD "") ||
    (m.path ≠ "" && m.path ≠ signal.path.getD "") ||
    (m.pathNamespace ≠ "" &&
      match signal.path with
      | none => true
      | some path =>
        path.toList.take m.pathNamespace.toList.length ≠ m.pathNamespace.toList ||
          (m.pathNamespace.toList.length < path.toList.length && m.pathNamespace ≠ "/" &&
            path.toList[m.pathNamespace.toList.length]? ≠ some '/')))

/-- The subscriptions whose callbacks get the signal. -/
def filterMessage (subscriptions : List Subscription) (signal : SignalHeader) : List Subscription :=
  subscriptions.filter (·.criteria.selects signal)

-- ---------------------------------------------------------------------------
-- The two of them
-- ---------------------------------------------------------------------------

namespace SignalMatch

variable {m : SignalMatch} {owner : String → Option String} {signal : SignalHeader}

theorem accepts_iff : m.Accepts owner signal ↔
    signal.interface = some m.interface ∧ signal.member = some m.member ∧
      (m.sender ≠ "" → (Clause.sender m.sender).Accepts owner signal) ∧
      (m.path ≠ "" → signal.path = some m.path) ∧
      (m.pathNamespace ≠ "" → ∃ path ∈ signal.path, Within m.pathNamespace path) := by
  have hoptional : ∀ (p : Prop) [Decidable p] (clause : Clause),
      (∀ c ∈ (if p then [clause] else []), c.Accepts owner signal) ↔ (p → clause.Accepts owner signal) := by
    intro p _ clause
    split
    · rename_i hp
      rw [List.forall_mem_singleton]
      exact ⟨fun h _ => h, fun h => h hp⟩
    · rename_i hp
      exact ⟨fun _ h => absurd h hp, fun _ => nofun⟩
  unfold Accepts clauses
  rw [List.forall_mem_append, List.forall_mem_append, List.forall_mem_append, hoptional, hoptional, hoptional,
    List.forall_mem_cons, List.forall_mem_singleton, and_assoc, and_assoc, and_assoc]
  rfl

/-- The prefix and the character after it. -/
theorem within_iff {pathNamespace path : String} (h : pathNamespace ≠ "") :
    Within pathNamespace path ↔
      path.toList.take pathNamespace.toList.length = pathNamespace.toList ∧
        (pathNamespace.toList.length < path.toList.length → pathNamespace ≠ "/" →
          path.toList[pathNamespace.toList.length]? = some '/') := by
  constructor
  · rintro (rfl | ⟨rest, hrest⟩ | ⟨rfl, rest, hrest⟩)
    · exact ⟨List.take_length, fun hlt => absurd hlt (Nat.lt_irrefl _)⟩
    · rw [← hrest, List.append_assoc]
      exact ⟨List.take_left, fun _ _ => by rw [List.getElem?_append_right (Nat.le_refl _), Nat.sub_self]; rfl⟩
    · rw [← hrest]
      exact ⟨List.take_left, fun _ hne => absurd rfl hne⟩
  · rintro ⟨htake, hnext⟩
    by_cases hlt : pathNamespace.toList.length < path.toList.length
    · by_cases hroot : pathNamespace = "/"
      · subst hroot
        exact .inr (.inr ⟨rfl, List.prefix_iff_eq_take.mpr htake.symm⟩)
      · refine .inr (.inl ?_)
        have hstart : pathNamespace.toList ++ ['/'] = path.toList.take (pathNamespace.toList.length + 1) := by
          rw [List.take_add_one, htake, hnext hlt hroot]
          rfl
        rw [hstart]
        exact List.take_prefix _ _
    · rw [List.take_of_length_le (Nat.not_lt.mp hlt)] at htake
      exact .inl (String.toList_inj.mp htake)

/-- The rule without its sender. -/
def anySender (m : SignalMatch) : SignalMatch := { m with sender := "" }

/-- A sender that is not a unique name. -/
def WellKnown (name : String) : Prop := name ≠ "" ∧ name.toList.head? ≠ some ':'

instance (name : String) : Decidable (WellKnown name) := inferInstanceAs (Decidable (_ ∧ _))

theorem accepts_iff_anySender : m.Accepts owner signal ↔
    m.anySender.Accepts owner signal ∧ (m.sender ≠ "" → (Clause.sender m.sender).Accepts owner signal) := by
  rw [accepts_iff, accepts_iff]
  constructor
  · rintro ⟨hinterface, hmember, hsender, hpath, hnamespace⟩
    exact ⟨⟨hinterface, hmember, fun h => absurd rfl h, hpath, hnamespace⟩, hsender⟩
  · rintro ⟨⟨hinterface, hmember, -, hpath, hnamespace⟩, hsender⟩
    exact ⟨hinterface, hmember, hsender, hpath, hnamespace⟩

theorem getD_eq {value : Option String} {name : String} (h : name ≠ "") : name = value.getD "" ↔
    value = some name := by
  cases value with
  | none => exact ⟨fun heq => absurd heq h, nofun⟩
  | some found => exact ⟨fun heq => congrArg some heq.symm, fun heq => (Option.some.inj heq).symm⟩

theorem eq_empty_or_getD_eq {value : Option String} {name : String} :
    name = "" ∨ name = value.getD "" ↔ (name ≠ "" → value = some name) := by
  rw [or_iff_not_imp_left]
  exact forall_congr' fun h => getD_eq h

/-- The client's test of a namespace that is given. -/
theorem namespace_iff {pathNamespace : String} {path : Option String} (h : pathNamespace ≠ "") :
    (match path with
      | none => true
      | some path =>
        path.toList.take pathNamespace.toList.length ≠ pathNamespace.toList ||
          (pathNamespace.toList.length < path.toList.length && pathNamespace ≠ "/" &&
            path.toList[pathNamespace.toList.length]? ≠ some '/')) = false ↔
      ∃ found ∈ path, Within pathNamespace found := by
  cases path with
  | none => exact ⟨nofun, nofun⟩
  | some path =>
    have hsome : (∃ found ∈ some path, Within pathNamespace found) ↔ Within pathNamespace path := by simp
    rw [hsome, within_iff h]
    simp only [Bool.or_eq_false_iff, Bool.and_eq_false_iff, decide_eq_false_iff_not, ne_eq, not_not]
    refine and_congr_right fun _ => ?_
    rw [or_iff_not_imp_left, not_or, not_not, and_imp]

/-- `filterMessage` compares a unique name only. -/
theorem selects_iff (h : m.Valid) : m.selects signal ↔
    m.anySender.Accepts owner signal ∧ (m.sender.toList.head? = some ':' → signal.sender = some m.sender) := by
  have hunique : m.sender.toList.head? = some ':' → m.sender ≠ "" := by
    intro hhead heq
    rw [heq] at hhead
    cases hhead
  have hsender : ((m.sender = "" ∨ ¬m.sender.toList.head? = some ':') ∨ m.sender = signal.sender.getD "") ↔
      (m.sender.toList.head? = some ':' → signal.sender = some m.sender) := by
    constructor
    · rintro ((hempty | hwellKnown) | hsame) hhead
      · exact absurd hempty (hunique hhead)
      · exact absurd hhead hwellKnown
      · exact (getD_eq (hunique hhead)).mp hsame
    · intro hsame
      by_cases hhead : m.sender.toList.head? = some ':'
      · exact .inr ((getD_eq (hunique hhead)).mpr (hsame hhead))
      · exact .inl (.inr hhead)
  have hnamespace : (m.pathNamespace = "" ∨ _) ↔ (m.pathNamespace ≠ "" → ∃ path ∈ signal.path,
    Within m.pathNamespace path) :=
    or_iff_not_imp_left.trans (forall_congr' fun hne => namespace_iff hne)
  rw [accepts_iff]
  unfold selects
  simp only [Bool.not_eq_true', Bool.or_eq_false_iff, Bool.and_eq_false_iff, decide_eq_false_iff_not,
    ne_eq, not_not]
    at hnamespace ⊢
  rw [hsender, hnamespace, eq_empty_or_getD_eq, getD_eq h.interface, getD_eq h.member]
  constructor
  · rintro ⟨⟨⟨⟨hinterface, hmember⟩, hsame⟩, hpath⟩, hwithin⟩
    exact ⟨⟨hinterface, hmember, fun hne => absurd rfl hne, hpath, hwithin⟩, hsame⟩
  · rintro ⟨⟨hinterface, hmember, -, hpath, hwithin⟩, hsame⟩
    exact ⟨⟨⟨⟨hinterface, hmember⟩, hsame⟩, hpath⟩, hwithin⟩

/-- The two differ on a well-known name that the sender of the signal does not own. -/
theorem selects_iff_accepts (h : m.Valid) : (m.selects signal ↔ m.Accepts owner signal) ↔
    (WellKnown m.sender → m.anySender.Accepts owner signal → ∃ sender ∈ signal.sender,
    owner m.sender = some sender) := by
  rw [selects_iff h, accepts_iff_anySender (m := m)]
  by_cases hhead : m.sender.toList.head? = some ':'
  · -- A unique name is compared by both.
    have hsender : signal.sender = some m.sender → (Clause.sender m.sender).Accepts owner signal := fun hsame =>
      ⟨m.sender, hsame, if_pos hhead⟩
    have hsame : (Clause.sender m.sender).Accepts owner signal → signal.sender = some m.sender := by
      rintro ⟨sender, hmem, howner⟩
      rw [ownerOf, if_pos hhead] at howner
      exact howner ▸ hmem
    refine iff_of_true (and_congr_right fun _ => ⟨fun h _ => hsender (h hhead),
      fun h _ => hsame (h ?_)⟩) fun hwellKnown =>
      absurd hhead hwellKnown.2
    intro hempty
    rw [hempty] at hhead
    cases hhead
  · have howner : (Clause.sender m.sender).Accepts owner signal ↔ ∃ sender ∈ signal.sender,
      owner m.sender = some sender := by
      rw [Clause.Accepts, ownerOf, if_neg hhead]
    rw [howner]
    constructor
    · exact fun hiff hwellKnown haccepts => (hiff.mp ⟨haccepts, fun h => absurd h hhead⟩).2 hwellKnown.1
    · exact fun howns => and_congr_right fun haccepts =>
        ⟨fun _ hne => howns ⟨hne, hhead⟩ haccepts, fun _ h => absurd h hhead⟩

end SignalMatch

/-- Each subscription gets the signals of its rule. -/
def Exact (subscriptions : List Subscription) (owner : String → Option String) (signal : SignalHeader) : Prop :=
  ∀ subscription ∈ subscriptions,
    subscription ∈ filterMessage subscriptions signal ↔ subscription.criteria.Accepts owner signal

/-- The routing is exact when a well-known sender is the sender of the signal, wherever the rest of
the rule matches. -/
theorem filterMessage_exact (subscriptions : List Subscription) (owner : String → Option String)
    (signal : SignalHeader) :
    Exact subscriptions owner signal ↔
      ∀ subscription ∈ subscriptions, SignalMatch.WellKnown subscription.criteria.sender →
        subscription.criteria.anySender.Accepts owner signal →
          ∃ sender ∈ signal.sender, owner subscription.criteria.sender = some sender := by
  refine forall_congr' fun subscription => forall_congr' fun hmem => ?_
  rw [← SignalMatch.selects_iff_accepts subscription.valid, filterMessage, List.mem_filter, and_iff_right hmem]

/-- A subscription to the signals of one service, and one to the same signals of anyone. -/
def overlapping : List Subscription :=
  [⟨1, { sender := "org.bluez", interface := "i.i", member := "m" }, by decide, by decide, .inl rfl⟩,
    ⟨2, { interface := "i.i", member := "m" }, by decide, by decide, .inl rfl⟩]

/-- The signal of another connection than the owner of the name, which is `:1.1`. -/
def foreign : SignalHeader := ⟨some "i.i", some "m", some ":1.7", some "/p"⟩

theorem filterMessage_foreignSender :
    (∃ subscription ∈ overlapping, subscription.criteria.Accepts (fun _ => some ":1.1") foreign) ∧
      ¬Exact overlapping (fun _ => some ":1.1") foreign := by
  constructor
  · exact ⟨_, .tail _ (.head _), SignalMatch.accepts_iff.mpr ⟨rfl, rfl, fun h => absurd rfl h,
      fun h => absurd rfl h,
      fun h => absurd rfl h⟩⟩
  · intro hexact
    have hselected := (hexact _ (.head _)).mp (List.mem_filter.mpr ⟨.head _, by decide +kernel⟩)
    obtain ⟨sender, hsender, howner⟩ := (SignalMatch.accepts_iff.mp hselected).2.2.1 (by decide)
    obtain rfl : ":1.7" = sender := Option.some.inj hsender
    exact absurd howner (by decide +kernel)

end Dmn.Dbus
