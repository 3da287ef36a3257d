import LibTg.Data.Run
import Mathlib.Data.List.Basic

/-!
# Keys and servers

An authorization key belongs to the server that it was negotiated with. The session has one address
and one key, and every queue has an address of its own for its connection. `migrate_to_dc` and
`tg_auth_sendCode` change the address, `tg_prepare_mtproto` negotiates a key only if there is none.
This is the state machine of these functions for any number of queues; what the servers answer, and
which address the configuration gives for a data centre, is up to the schedule.
-/

namespace LibTg.Tg

/-- `tg->key`: the server that its bytes were negotiated with, and whether `size` is not zero. -/
structure Key (Address : Type*) where
  server : Address
  present : Bool
  deriving DecidableEq

/-- Where the thread of a queue stands: before `tg_net_open`, before `tg_prepare_mtproto`, inside it
while `api.app.open` negotiates with an address, before the packet is encrypted and sent, in the
receive loop, and behind it. -/
inductive LinkPc (Address : Type*)
  | created
  | opened
  | negotiating (address : Address)
  | prepared
  | receiving
  | done
  deriving DecidableEq

/-- A queue: `queue->ip`, and the address that `queue->socket` is connected to. -/
structure Link (Address : Type*) where
  ip : Address
  conn : Option Address
  pc : LinkPc Address
  deriving DecidableEq

/-- The session with its queues. `clearing` says that `tg_auth_sendCode` has changed the address and
not yet dropped the key; `sent` has for every encrypted packet the address behind its connection and
the server of the key. -/
structure Keyring (Address : Type*) where
  ip : Address
  key : Option (Key Address)
  clearing : Bool
  links : List (Link Address)
  sent : List (Option Address × Option Address)
  deriving DecidableEq

section Keyring

variable {Address : Type*}

/-- A session from `tg_new`, with the address and the key of the database. -/
def Keyring.start (ip : Address) (saved : Bool) : Keyring Address where
  ip := ip
  key := if saved then some ⟨ip, true⟩ else none
  clearing := false
  links := []
  sent := []

/-- The steps: a request of the user, `tg_net_open`, `tg_prepare_mtproto` up to `api.app.open` and
after it, the send of a packet, `RTL_RESEND`, the end of a queue, `migrate_to_dc` with the address
of the data centre and whether it is the main one, `flood_wait_for_seconds`, and the two statements
of `tg_auth_sendCode` for `PHONE_MIGRATE_`. -/
inductive KeyLabel (Address : Type*)
  | request
  | netOpen (queue : ℕ) (opened : Bool)
  | prepare (queue : ℕ)
  | negotiated (queue : ℕ)
  | send (queue : ℕ) (sent : Bool)
  | resend (queue : ℕ)
  | finish (queue : ℕ)
  | migrate (ip : Address) (main : Bool)
  | floodWait (queue : ℕ)
  | setServerAddress (ip : Address)
  | dropKey

/-- `tg->key.size`, as a test. -/
def Keyring.hasKey (tg : Keyring Address) : Bool := tg.key.any Key.present

/-- The server of a key of non-zero size. -/
def Keyring.keyServer (tg : Keyring Address) : Option Address :=
  tg.key.bind fun key ↦ if key.present then some key.server else none

/-- `tg_queue_new`. -/
def Keyring.add (tg : Keyring Address) (ip : Address) : Keyring Address :=
  { tg with links := tg.links ++ [⟨ip, none, .created⟩] }

def Keyring.put (tg : Keyring Address) (queue : ℕ) (link : Link Address) : Keyring Address :=
  { tg with links := tg.links.set queue link }

/-- A queue that holds `queue_lock` in `tg_prepare_mtproto`. -/
def Link.isNegotiating (link : Link Address) : Bool :=
  match link.pc with
  | .negotiating _ => true
  | _ => false

def keyStep [DecidableEq Address] (tg : Keyring Address) : KeyLabel Address → Option (Keyring Address)
  | .request => some (tg.add tg.ip)
  | .netOpen queue opened => do
    let link ← tg.links[queue]?
    if link.pc = .created then
      if opened then some (tg.put queue { link with conn := some link.ip, pc := .opened })
      else some (tg.put queue { link with pc := .done })
    else none
  | .prepare queue => do
    let link ← tg.links[queue]?
    if link.pc = .opened ∧ ¬ tg.links.any Link.isNegotiating then
      some (tg.put queue
        { link with pc := if tg.hasKey then .prepared else .negotiating tg.ip })
    else none
  | .negotiated queue => do
    let link ← tg.links[queue]?
    match link.pc with
    | .negotiating ip =>
      some ({ tg with key := some ⟨ip, true⟩ }.put queue
        { link with conn := some ip, pc := .prepared })
    | _ => none
  | .send queue sent => do
    let link ← tg.links[queue]?
    if link.pc = .prepared then
      some ({ tg with sent := tg.sent ++ [(link.conn, tg.keyServer)] }.put queue
        { link with pc := if sent then .receiving else .done })
    else none
  | .resend queue => do
    let link ← tg.links[queue]?
    if link.pc = .receiving then some (tg.put queue { link with pc := .opened }) else none
  | .finish queue => do
    let link ← tg.links[queue]?
    if link.pc = .receiving then some (tg.put queue { link with pc := .done }) else none
  | .migrate ip main => some ((if main then { tg with ip := ip } else tg).add ip)
  | .floodWait queue => do
    let link ← tg.links[queue]?
    some (tg.add link.ip)
  | .setServerAddress ip => some { tg with ip := ip, clearing := true }
  | .dropKey =>
    if tg.clearing then
      some { tg with key := tg.key.map fun key ↦ { key with present := false }, clearing := false }
    else none

/-- Every packet was encrypted with a key of the server behind its connection. -/
def Keyring.Paired (tg : Keyring Address) : Prop :=
  ∀ packet ∈ tg.sent, ∃ server, packet = (some server, some server)

/-- No migration to another data centre: new queues are for the main address, and this address only
changes, together with the key, while no queue is alive. -/
def Steady (tg : Keyring Address) : KeyLabel Address → Prop
  | .request => tg.clearing = false
  | .migrate ip _ => tg.clearing = false ∧ ip = tg.ip
  | .floodWait queue => tg.clearing = false ∧ ∀ link ∈ tg.links[queue]?, link.ip = tg.ip
  | .setServerAddress _ => ∀ link ∈ tg.links, link.pc = .done
  | _ => True

/-! ## The key in use -/

/-- A queue that only knows the main address. -/
structure Link.Settled (tg : Keyring Address) (link : Link Address) : Prop where
  ip : link.ip = tg.ip
  conn : link.pc = .opened ∨ link.pc = .prepared ∨ link.pc = .receiving → link.conn = some tg.ip
  negotiating : ∀ address, link.pc = .negotiating address → address = tg.ip
  prepared : link.pc = .prepared → tg.hasKey

/-- What steady steps keep. -/
structure Keyring.Sound (tg : Keyring Address) : Prop where
  paired : tg.Paired
  key : tg.clearing = false → ∀ key ∈ tg.key, key.present → key.server = tg.ip
  links : ∀ link ∈ tg.links, link.pc = .done ∨ tg.clearing = false ∧ link.Settled tg

variable {tg next : Keyring Address} {label : KeyLabel Address}

theorem hasKey_iff : tg.hasKey = true ↔ ∃ key, tg.key = some key ∧ key.present := by
  cases hkey : tg.key <;> simp [Keyring.hasKey, hkey]

/-- A key in use belongs to the main address. -/
theorem Keyring.Sound.keyServer (h : tg.Sound) (hclearing : tg.clearing = false)
    (hkey : tg.hasKey) : tg.keyServer = some tg.ip := by
  obtain ⟨key, hsome, hpresent⟩ := hasKey_iff.mp hkey
  rw [Keyring.keyServer, hsome, Option.bind_some, if_pos hpresent, h.key hclearing key hsome hpresent]

theorem Link.Settled.of_same {link : Link Address} (h : link.Settled tg) (hip : next.ip = tg.ip)
    (hkey : tg.hasKey → next.hasKey) : link.Settled next where
  ip := h.ip.trans hip.symm
  conn hpc := by rw [h.conn hpc, hip]
  negotiating address hpc := (h.negotiating address hpc).trans hip.symm
  prepared hpc := hkey (h.prepared hpc)

theorem start_sound (ip : Address) (saved : Bool) : (Keyring.start ip saved).Sound where
  paired := fun packet hmem ↦ nomatch hmem
  key := by
    intro _ key hkey _
    cases saved with
    | false => cases hkey
    | true =>
      cases hkey
      rfl
  links := fun link hmem ↦ nomatch hmem

/-- A queue for the main address is created. -/
theorem Keyring.Sound.add (h : tg.Sound) (hclearing : tg.clearing = false) :
    (tg.add tg.ip).Sound where
  paired := h.paired
  key := h.key
  links := by
    intro link hmem
    rcases List.mem_append.mp hmem with hbefore | hlast
    · exact (h.links link hbefore).imp_right fun hlink ↦ ⟨hlink.1, hlink.2.of_same rfl id⟩
    · rw [List.mem_singleton.mp hlast]
      exact .inr ⟨hclearing, rfl, nofun, nofun, nofun⟩

/-- One queue moves, and nothing else changes. -/
theorem Keyring.Sound.put (h : tg.Sound) {queue : ℕ} {link : Link Address}
    (hlink : link.pc = .done ∨ tg.clearing = false ∧ link.Settled tg) : (tg.put queue link).Sound where
  paired := h.paired
  key := h.key
  links := by
    intro other hmem
    have hother : other.pc = .done ∨ tg.clearing = false ∧ other.Settled tg := by
      rcases List.mem_or_eq_of_mem_set hmem with hbefore | rfl
      · exact h.links other hbefore
      · exact hlink
    exact hother.imp_right fun hsettled ↦ ⟨hsettled.1, hsettled.2.of_same rfl id⟩

/-- A queue that is alive finds the address and the key at rest. -/
theorem Keyring.Sound.alive (h : tg.Sound) {queue : ℕ} {link : Link Address}
    (hlink : tg.links[queue]? = some link) (hpc : link.pc ≠ .done) :
    tg.clearing = false ∧ link.Settled tg :=
  (h.links link (List.mem_of_getElem? hlink)).resolve_left hpc

/-- The key of the main address comes into use. -/
theorem Keyring.Sound.negotiated (h : tg.Sound) :
    ({ tg with key := some ⟨tg.ip, true⟩ } : Keyring Address).Sound where
  paired := h.paired
  key := by
    rintro _ key ⟨⟩ _
    rfl
  links := fun link hmem ↦
    (h.links link hmem).imp_right fun hlink ↦ ⟨hlink.1, hlink.2.of_same rfl fun _ ↦ rfl⟩

/-- A packet is sent over a connection to the main address. -/
theorem Keyring.Sound.send (h : tg.Sound) (hclearing : tg.clearing = false) {link : Link Address}
    (hsettled : link.Settled tg) (hpc : link.pc = .prepared) :
    ({ tg with sent := tg.sent ++ [(link.conn, tg.keyServer)] } : Keyring Address).Sound where
  paired := by
    intro packet hmem
    rcases List.mem_append.mp hmem with hbefore | hlast
    · exact h.paired packet hbefore
    · refine ⟨tg.ip, ?_⟩
      rw [List.mem_singleton.mp hlast, hsettled.conn (.inr (.inl hpc)),
        h.keyServer hclearing (hsettled.prepared hpc)]
  key := h.key
  links := fun link hmem ↦
    (h.links link hmem).imp_right fun hlink ↦ ⟨hlink.1, hlink.2.of_same rfl id⟩

/-- A queue that is alive stays settled as it moves. -/
theorem Keyring.Sound.move (h : tg.Sound) {queue : ℕ} {link moved : Link Address}
    (hlink : tg.links[queue]? = some link) (halive : link.pc ≠ .done)
    (hmoved : link.Settled tg → moved.Settled tg) : (tg.put queue moved).Sound := by
  obtain ⟨hclearing, hsettled⟩ := h.alive hlink halive
  exact h.put (.inr ⟨hclearing, hmoved hsettled⟩)

theorem Link.Settled.opened {link : Link Address} (h : link.Settled tg) :
    Link.Settled tg { link with conn := some link.ip, pc := .opened } :=
  ⟨h.ip, fun _ ↦ congrArg some h.ip, nofun, nofun⟩

/-- A queue that looks for a key has one, or negotiates with the main address. -/
theorem Link.Settled.preparing {link : Link Address} (h : link.Settled tg) (hpc : link.pc = .opened) :
    Link.Settled tg { link with pc := if tg.hasKey then .prepared else .negotiating tg.ip } := by
  have hconn := h.conn (.inl hpc)
  cases hkey : tg.hasKey with
  | true => exact ⟨h.ip, fun _ ↦ hconn, nofun, fun _ ↦ hkey⟩
  | false =>
    refine ⟨h.ip, fun _ ↦ hconn, ?_, nofun⟩
    rintro address ⟨⟩
    rfl

/-- A queue that has sent or is to send again keeps its connection. -/
theorem Link.Settled.turn {link : Link Address} (h : link.Settled tg)
    (hpc : link.pc = .prepared ∨ link.pc = .receiving) {pc : LinkPc Address}
    (hturn : pc = .receiving ∨ pc = .opened) : Link.Settled tg { link with pc := pc } := by
  refine ⟨h.ip, fun _ ↦ h.conn (.inr hpc), ?_, ?_⟩
  · rintro address rfl
    rcases hturn with hturn | hturn <;> cases hturn
  · rintro rfl
    rcases hturn with hturn | hturn <;> cases hturn

/-- The address changes while no queue is alive. -/
theorem Keyring.Sound.clear (h : tg.Sound) (hdone : ∀ link ∈ tg.links, link.pc = .done)
    (ip : Address) : ({ tg with ip := ip, clearing := true } : Keyring Address).Sound :=
  ⟨h.paired, nofun, fun link hmem ↦ .inl (hdone link hmem)⟩

/-- The key is dropped behind a change of the address. -/
theorem Keyring.Sound.dropKey (h : tg.Sound) (hclearing : tg.clearing = true) :
    ({ tg with
      key := tg.key.map fun key ↦ { key with present := false }
      clearing := false } : Keyring Address).Sound where
  paired := h.paired
  key := by
    intro _ key hkey hpresent
    obtain ⟨before, -, rfl⟩ := Option.map_eq_some_iff.mp hkey
    cases hpresent
  links := by
    refine fun link hmem ↦ .inl ((h.links link hmem).resolve_right fun hlink ↦ ?_)
    cases hclearing.symm.trans hlink.1

theorem keyStep_sound [DecidableEq Address] (hstep : keyStep tg label = some next) (hsteady : Steady tg label)
    (h : tg.Sound) : next.Sound := by
  cases label with
  | request =>
    cases hstep
    exact h.add hsteady
  | netOpen queue opened =>
    obtain ⟨link, hlink, hstep⟩ := Option.bind_eq_some_iff.mp hstep
    split at hstep
    case isTrue hpc =>
      split at hstep
      · cases hstep
        exact h.move hlink (hpc ▸ nofun) Link.Settled.opened
      · cases hstep
        exact h.put (.inl rfl)
    · cases hstep
  | prepare queue =>
    obtain ⟨link, hlink, hstep⟩ := Option.bind_eq_some_iff.mp hstep
    split at hstep
    case isTrue hpc =>
      cases hstep
      exact h.move hlink (hpc.1 ▸ nofun) fun hsettled ↦ hsettled.preparing hpc.1
    · cases hstep
  | negotiated queue =>
    obtain ⟨link, hlink, hstep⟩ := Option.bind_eq_some_iff.mp hstep
    split at hstep
    case h_1 ip hpc =>
      cases hstep
      obtain ⟨hclearing, hsettled⟩ := h.alive hlink (hpc ▸ nofun)
      obtain rfl := hsettled.negotiating ip hpc
      exact h.negotiated.put (.inr ⟨hclearing, hsettled.ip, fun _ ↦ rfl, nofun, fun _ ↦ rfl⟩)
    · cases hstep
  | send queue sent =>
    obtain ⟨link, hlink, hstep⟩ := Option.bind_eq_some_iff.mp hstep
    split at hstep
    case isTrue hpc =>
      cases hstep
      obtain ⟨hclearing, hsettled⟩ := h.alive hlink (hpc ▸ nofun)
      refine (h.send hclearing hsettled hpc).put ?_
      cases sent with
      | false => exact .inl rfl
      | true => exact .inr ⟨hclearing, (hsettled.turn (.inl hpc) (.inl rfl)).of_same rfl id⟩
    · cases hstep
  | resend queue =>
    obtain ⟨link, hlink, hstep⟩ := Option.bind_eq_some_iff.mp hstep
    split at hstep
    case isTrue hpc =>
      cases hstep
      exact h.move hlink (hpc ▸ nofun) fun hsettled ↦ hsettled.turn (.inr hpc) (.inr rfl)
    · cases hstep
  | finish queue =>
    obtain ⟨link, hlink, hstep⟩ := Option.bind_eq_some_iff.mp hstep
    split at hstep
    · cases hstep
      exact h.put (.inl rfl)
    · cases hstep
  | migrate ip main =>
    cases hstep
    obtain ⟨hclearing, rfl⟩ := hsteady
    have hsame : (if main then { tg with ip := tg.ip } else tg) = tg := by
      split <;> rfl
    rw [hsame]
    exact h.add hclearing
  | floodWait queue =>
    obtain ⟨link, hlink, hstep⟩ := Option.bind_eq_some_iff.mp hstep
    cases hstep
    rw [hsteady.2 link hlink]
    exact h.add hsteady.1
  | setServerAddress ip =>
    cases hstep
    exact h.clear hsteady ip
  | dropKey =>
    simp only [keyStep] at hstep
    split at hstep
    case isTrue hclearing =>
      cases hstep
      exact h.dropKey hclearing
    · cases hstep

/-- On every steady schedule each packet is encrypted with a key of the server that it goes to. -/
theorem run_paired [DecidableEq Address] {ip : Address} {saved : Bool} {labels : List (KeyLabel Address)}
    {final : Keyring Address} (hrun : run keyStep (.start ip saved) labels = some final)
    (hsteady : Along keyStep Steady (.start ip saved) labels) : final.Paired :=
  (run_invariant_along keyStep_sound hrun hsteady (start_sound ip saved)).paired

end Keyring

/-! ## A phone that moves, and a file on another server -/

instance {Address : Type*} [DecidableEq Address] (tg : Keyring Address) (label : KeyLabel Address) :
    Decidable (Steady tg label) := by
  cases label <;> unfold Steady <;> infer_instance

/-- The first request negotiates a key, has a wrong salt and is sent again; then the account is
found to live at the address 2, and the second request negotiates a key there. -/
def phoneMoves : List (KeyLabel ℕ) :=
  [.request, .netOpen 0 true, .prepare 0, .negotiated 0, .send 0 true, .resend 0, .prepare 0,
    .send 0 true, .finish 0, .setServerAddress 2, .dropKey, .request, .netOpen 1 true, .prepare 1,
    .negotiated 1, .send 1 true]

/-- The second request is for a file at the address 2. -/
def fileMoves : List (KeyLabel ℕ) :=
  [.request, .netOpen 0 true, .prepare 0, .negotiated 0, .send 0 true, .migrate 2 false,
    .netOpen 1 true, .prepare 1, .send 1 true]

/-- The session after a schedule that is known to be enabled. -/
def keyringAfter (labels : List (KeyLabel ℕ)) : Keyring ℕ :=
  (run keyStep (.start 1 false) labels).getD (.start 1 false)

theorem phoneMoves_paired : (keyringAfter phoneMoves).Paired := by
  have hrun : run keyStep (.start 1 false) phoneMoves = some (keyringAfter phoneMoves) := by
    decide +kernel
  exact run_paired hrun (by decide +kernel)

/-- The file is asked for with the key of the main server. -/
theorem fileMoves_not_paired :
    ∃ final, run keyStep (Keyring.start 1 false) fileMoves = some final ∧ ¬ final.Paired := by
  have hrun : run keyStep (.start 1 false) fileMoves = some (keyringAfter fileMoves) := by
    decide +kernel
  refine ⟨keyringAfter fileMoves, hrun, fun hpaired ↦ ?_⟩
  obtain ⟨server, hserver⟩ := hpaired (some 2, some 1) (by decide +kernel)
  cases hserver

end LibTg.Tg
