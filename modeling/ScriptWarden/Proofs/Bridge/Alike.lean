import ScriptWarden.Proofs.Bridge.Quiet
import ScriptWarden.Proofs.Lua.Alike
set_option autoImplicit false

/-!
# Bridge: looking at one package

The host keeps services for each package.  Somebody who looks at one package does not hear calls made under other names,
and may count loads in a way of their own (`View`).  What a package can reach of the host gives the same whether or not
one looks at it in this way: nothing it does depends on the number of its load, or on what it has for the world outside.
-/

namespace ScriptWarden

open Lua (Native Value World)

/-! ## Views -/

/-- A way to look at what one package does: calls under other names are left out, and loads are counted in another
way. -/
structure View where
  package : String
  number : Nat → Nat

namespace View

open Package (Effect Services)

variable {κ : Type}

/-- A token of another count of loads. -/
def token (v : View) (t : Host.Token) : Host.Token := { t with generation := v.number t.generation }

/-- What is seen of a call of the host. -/
def call (v : View) : Host.Call → Host.Call
  | .request t r => .request (v.token t) r
  | c => c

/-- What is seen of something for the world outside. -/
def effect? (v : View) : Effect → Option Effect
  | .call package c => if package = v.package then some (.call package (v.call c)) else none
  | .unending package => if package = v.package then some (.unending package) else none
  | e => some e

/-- What is seen of the services of the package. -/
def services (v : View) (s : Services κ) : Services κ :=
  { s with generation := v.number s.generation, outbox := s.outbox.filterMap v.effect? }

/-- The services of the package, and what is seen of them. -/
structure Shows (v : View) (s s' : Services κ) : Prop where
  package_eq : s.package = v.package
  seen : s' = v.services s

variable {v : View} {s s' : Services κ}

theorem shows_services (h : s.package = v.package) : v.Shows s (v.services s) := ⟨h, rfl⟩

/-- What does not look at the outbox and at the number of the load is seen as it is. -/
theorem Shows.map (h : v.Shows s s') {f : Services κ → Services κ} (hpackage : ∀ s, (f s).package = s.package)
    (hf : ∀ s, f (v.services s) = v.services (f s)) : v.Shows (f s) (f s') := by
  obtain ⟨hname, rfl⟩ := h
  exact ⟨(hpackage s).trans hname, hf s⟩

/-- Several things, one after another. -/
theorem shows_foldl {α : Type} (h : v.Shows s s') {f : Services κ → α → Services κ} (as : List α)
    (hf : ∀ {s s'}, v.Shows s s' → ∀ a, v.Shows (f s a) (f s' a)) : v.Shows (as.foldl f s) (as.foldl f s') := by
  induction as generalizing s s' with
  | nil => exact h
  | cons a rest ih => exact ih (hf h a)

theorem Shows.emit (h : v.Shows s s') {e e' : Effect} (he : v.effect? e = some e') :
    v.Shows (s.emit e) (s'.emit e') := by
  obtain ⟨hpackage, rfl⟩ := h
  refine ⟨hpackage, ?_⟩
  unfold Services.emit services
  simp only [List.filterMap_cons_some he]

/-- Calls under the name of the package are seen. -/
theorem Shows.tell (h : v.Shows s s') (c : Host.Call) : v.Shows (s.tell c) (s'.tell (v.call c)) := by
  have hname : s'.package = s.package := by rw [h.seen]; rfl
  unfold Services.tell
  rw [hname]
  refine h.emit ?_
  rw [effect?, if_pos h.package_eq]

/-- So is the giving up of a run of the package. -/
theorem Shows.giveUp (h : v.Shows s s') : v.Shows s.giveUp s'.giveUp := by
  have hname : s'.package = s.package := by rw [h.seen]; rfl
  unfold Services.giveUp
  rw [hname]
  refine h.emit ?_
  rw [effect?, if_pos h.package_eq]

theorem Shows.note (h : v.Shows s s') (d : Diagnostic) : v.Shows (s.note d) (s'.note d) := h.emit rfl

theorem Shows.pushLog (h : v.Shows s s') (level message : String) :
    v.Shows (s.pushLog level message) (s'.pushLog level message) := by
  obtain ⟨hpackage, rfl⟩ := h
  exact ⟨hpackage, rfl⟩

/-! ## Trust -/

theorem shows_trustValue (h : v.Shows s s') (policy : Trust.Policy) (c : Trust.Capability) :
    (s'.trustValue policy c).1 = (s.trustValue policy c).1 ∧
      v.Shows (s.trustValue policy c).2 (s'.trustValue policy c).2 := by
  obtain ⟨hpackage, rfl⟩ := h
  unfold Services.trustValue
  have hprincipal : (v.services s).principal = s.principal := rfl
  rw [hprincipal]
  split
  · exact ⟨rfl, shows_services hpackage⟩
  · exact ⟨rfl, (shows_services hpackage).note _⟩

theorem shows_check (h : v.Shows s s') (policy : Trust.Policy) (c : Trust.Capability) (least : Int) :
    (s'.check policy c least).1 = (s.check policy c least).1 ∧
      v.Shows (s.check policy c least).2 (s'.check policy c least).2 := by
  obtain ⟨hsame, hshows⟩ := shows_trustValue h policy c
  obtain ⟨hpackage, hseen⟩ := hshows
  unfold Services.check
  simp only
  rw [hsame, hseen]
  split
  · exact ⟨rfl, hpackage, rfl⟩
  · exact ⟨rfl, hpackage, rfl⟩

theorem shows_tickQuotas (h : v.Shows s s') (policy : Trust.Policy) :
    v.Shows (s.tickQuotas policy) (s'.tickQuotas policy) := by
  have hdue : s'.gate.due = s.gate.due := by rw [h.seen]; rfl
  unfold Services.tickQuotas
  simp only [hdue]
  have hconsulted := shows_foldl h s.gate.due fun h c => (shows_trustValue h policy c).2
  exact hconsulted.map (f := fun s => { s with gate := s.gate.tick (policy.resolve s.principal) }) (fun _ => rfl)
    fun _ => rfl

/-! ## Requests and images -/

/-- Sending a request: the host is told, and may answer at once. -/
theorem send_eq (s : Services κ) (request : Host.Request) : s.send request =
    (s.nextHandle,
      let told := s.takeHandle.2.tell (.request ⟨s.package, s.generation, s.nextHandle⟩ request)
      (s.reply request s.nextHandle).elim told fun c =>
        { told with mailbox := (told.mailbox.deliver c).2 }) := by
  unfold Services.send
  cases hanswer : s.reply request s.nextHandle with
  | none => simp only [Services.takeHandle, Services.tell, Services.emit, hanswer, Option.elim]
  | some c => simp only [Services.takeHandle, Services.tell, Services.emit, hanswer, Option.elim]

/-- What a host answers at once does not depend on the number of the load. -/
theorem shows_send (h : v.Shows s s') (request : Host.Request) :
    (s'.send request).1 = (s.send request).1 ∧ v.Shows (s.send request).2 (s'.send request).2 := by
  obtain ⟨hpackage, rfl⟩ := h
  have htold := (shows_services (s := s.takeHandle.2) hpackage).tell
    (.request ⟨s.package, s.generation, s.nextHandle⟩ request)
  have hanswer : (v.services s).reply request (v.services s).nextHandle = s.reply request s.nextHandle := rfl
  rw [send_eq, send_eq, hanswer]
  refine ⟨rfl, ?_⟩
  cases s.reply request s.nextHandle with
  | none => exact htold
  | some c => exact htold.map (f := fun s => { s with mailbox := (s.mailbox.deliver c).2 }) (fun _ => rfl) fun _ => rfl

theorem shows_uploadOne (h : v.Shows s s') (id : Nat) : v.Shows (s.uploadOne id) (s'.uploadOne id) := by
  have hgallery : s'.gallery = s.gallery := by rw [h.seen]; rfl
  unfold Services.uploadOne
  rw [hgallery]
  split
  · split
    · exact (h.tell (.upload _)).map (f := fun told => { told with gallery := s.gallery.editImage id fun _ => _ })
        (fun _ => rfl) fun _ => rfl
    · exact h
  · exact h

theorem shows_uploadDirty (h : v.Shows s s') : v.Shows s.uploadDirty.2 s'.uploadDirty.2 := by
  have htextures : s'.textures = s.textures := by rw [h.seen]; rfl
  unfold Services.uploadDirty
  simp only [htextures]
  exact shows_foldl h _ fun h id => shows_uploadOne h id

theorem shows_shutdown (h : v.Shows s s') : v.Shows s.shutdown s'.shutdown := by
  obtain ⟨hpackage, rfl⟩ := h
  exact ⟨hpackage, rfl⟩

end View

namespace Bridge

open Package (Services)

variable {κ α β : Type} {v : View}

/-! ## Actions -/

namespace Action

/-- An action gives the same, and does the same, to what is seen of the services. -/
def Respects (v : View) (a : Action κ α) : Prop :=
  ∀ w w', w.Alike v.Shows w' → (a w').1 = (a w).1 ∧ (a w).2.Alike v.Shows (a w').2

@[simp] theorem respects_pure (a : α) : (pure a : Action κ α).Respects v := fun _ _ hw => ⟨rfl, hw⟩

@[simp] theorem respects_lift (x : Except String α) : (liftM x : Action κ α).Respects v := fun _ _ hw => ⟨rfl, hw⟩

@[simp] theorem respects_fail (message : String) : (fail message : Action κ α).Respects v :=
  fun _ _ hw => ⟨rfl, hw⟩

/-- A look at what every view shows. -/
theorem respects_look {f : Services κ → α} (hf : ∀ s, f (v.services s) = f s) : (look f : Action κ α).Respects v := by
  rintro _ _ ⟨heap, meter, hpackage, rfl⟩
  exact ⟨congrArg Except.ok (hf _), .intro heap meter (View.shows_services hpackage)⟩

theorem respects_onServices {f : Services κ → α × Services κ}
    (hf : ∀ s s', v.Shows s s' → (f s').1 = (f s).1 ∧ v.Shows (f s).2 (f s').2) : (onServices f).Respects v := by
  rintro _ _ ⟨heap, meter, hshows⟩
  obtain ⟨hsame, hafter⟩ := hf _ _ hshows
  exact ⟨congrArg Except.ok hsame, .intro heap meter hafter⟩

/-- A change of what every view shows. -/
theorem respects_plain {f : Services κ → α × Services κ} (hpackage : ∀ s, (f s).2.package = s.package)
    (hf : ∀ s, f (v.services s) = ((f s).1, v.services (f s).2)) : (onServices f).Respects v := by
  refine respects_onServices fun s s' hshows => ?_
  obtain ⟨hname, rfl⟩ := hshows
  rw [hf]
  exact ⟨rfl, (hpackage s).trans hname, rfl⟩

theorem respects_edit {f : Services κ → Services κ} (hf : ∀ s s', v.Shows s s' → v.Shows (f s) (f s')) :
    (edit f).Respects v := respects_onServices fun s s' hshows => ⟨rfl, hf s s' hshows⟩

theorem respects_change {f : Services κ → Services κ} (hpackage : ∀ s, (f s).package = s.package)
    (hf : ∀ s, f (v.services s) = v.services (f s)) : (edit f).Respects v :=
  respects_edit fun _ _ hshows => hshows.map hpackage hf

/-- A call of the host that is no request. -/
theorem respects_tell {c : Host.Call} (hc : v.call c = c) : (edit (·.tell c) : Action κ Unit).Respects v := by
  refine respects_edit fun s s' hshows => ?_
  have htold := hshows.tell c
  rwa [hc] at htold

@[simp] theorem respects_onHeap (f : Lua.Heap → α × Lua.Heap) : (onHeap f : Action κ α).Respects v := by
  rintro _ _ ⟨heap, meter, hshows⟩
  exact ⟨rfl, .intro _ meter hshows⟩

@[simp] theorem Respects.bind {a : Action κ α} {f : α → Action κ β} (ha : a.Respects v) (hf : ∀ x, (f x).Respects v) :
    (a >>= f).Respects v := by
  intro w w' hw
  obtain ⟨hsame, hafter⟩ := ha w w' hw
  rw [bind_apply, bind_apply]
  generalize a w = first, a w' = first' at hsame hafter ⊢
  obtain ⟨x, w⟩ := first
  obtain ⟨x', w'⟩ := first'
  cases hsame
  cases x with
  | ok x => exact hf x w w' hafter
  | error e => exact ⟨rfl, hafter⟩

@[simp] theorem respects_ite {c : Prop} [Decidable c] {a b : Action κ α} (ha : a.Respects v) (hb : b.Respects v) :
    (if c then a else b).Respects v := by
  split
  · exact ha
  · exact hb

end Action

@[simp] theorem respects_self (c : Call) : (c.self : Action κ (List Value)).Respects v := Action.respects_pure _

@[simp] theorem respects_object (c : Call) (i : Nat) (f : κ → Option α) :
    (c.object i f : Action κ (Nat × α)).Respects v := by
  refine .bind (Action.respects_lift _) fun id => ?_
  refine .bind (Action.respects_look fun _ => rfl) fun x => ?_
  split
  · exact Action.respects_pure _
  · exact Action.respects_lift _

theorem respects_checkAlive : (checkAlive : Action κ Unit).Respects v :=
  .bind (Action.respects_look fun _ => rfl) fun _ =>
    Action.respects_ite (Action.respects_fail _) (Action.respects_pure _)

theorem respects_seenAll (vs : List Value) : (seenAll vs : Action κ (List Argument)).Respects v := by
  rintro _ _ ⟨heap, meter, hpackage, rfl⟩
  exact ⟨rfl, .intro heap meter (View.shows_services hpackage)⟩

/-! ## Native functions -/

theorem native_raiseHost (e : Lua.Raised) : (raiseHost e : Native (Services κ) α).Respects v.Shows :=
  .bind (Native.respects_create _) fun _ => Native.respects_fail _

theorem native_raiseText (message : String) : (raiseText message : Native (Services κ) α).Respects v.Shows :=
  native_raiseHost _

theorem native_raisedOf (t : Lua.Thrown) : (raisedOf t : Native (Services κ) Lua.Raised).Respects v.Shows := by
  unfold raisedOf
  split
  · exact Native.respects_pure _
  · split
    · exact Native.respects_heap _
    · exact .bind (Native.respects_lift _) fun _ => Native.respects_pure _

theorem native_callBack (f : Value) (args : List Value) :
    (callBack f args : Native (Services κ) (List Value)).Respects v.Shows := by
  refine .bind (Native.respects_guarded _ _ _) fun answer => ?_
  cases answer with
  | values vs => exact Native.respects_pure _
  | raised t => exact .bind (native_raisedOf t) fun e => native_raiseHost e

theorem native_textOf (x : Value) (lead : String) : (textOf x lead : Native (Services κ) String).Respects v.Shows := by
  unfold textOf
  split
  · exact Native.respects_pure _
  · exact native_raiseHost _

theorem native_load (name source : Lua.Bytes) : (load name source : Native (Services κ) Value).Respects v.Shows := by
  unfold load
  split
  · exact native_raiseText _
  · refine .bind (Native.respects_create _) fun r => ?_
    cases r with
    | error message => exact native_raiseHost _
    | ok f => exact Native.respects_pure _

theorem native_perform {a : Action κ α} (ha : a.Respects v) : (perform a).Respects v.Shows := by
  rintro _ _ @⟨heap, meter, s, s', hshows⟩
  obtain ⟨hsame, hafter⟩ := ha _ _ (.intro heap none hshows)
  unfold perform
  simp only
  generalize a ⟨heap, s, none⟩ = done, a ⟨heap, s', none⟩ = done' at hsame hafter ⊢
  obtain ⟨x, w⟩ := done
  obtain ⟨x', w'⟩ := done'
  cases hsame
  obtain ⟨heap, _, hshows⟩ := hafter
  cases x with
  | ok x => exact .done x (.intro heap meter hshows)
  | error message => exact native_raiseText message _ _ (.intro heap meter hshows)

/-- A look at the host, and a change of what every view shows. -/
theorem native_host {f : Services κ → α × Services κ} (hpackage : ∀ s, (f s).2.package = s.package)
    (hf : ∀ s, f (v.services s) = ((f s).1, v.services (f s).2)) : (Native.host f).Respects v.Shows := by
  refine Native.respects_host fun s s' hshows => ?_
  obtain ⟨hname, rfl⟩ := hshows
  rw [hf]
  exact ⟨rfl, (hpackage s).trans hname, rfl⟩

theorem native_output (level : String) (args : List Value) :
    (output level args : Native (Services κ) (List Value)).Respects v.Shows := by
  refine .bind (Native.respects_heap _) fun stringifier => ?_
  refine .bind (native_callBack _ _) fun vs => ?_
  refine .bind (native_textOf _ _) fun message => ?_
  exact .bind (native_host (fun _ => rfl) fun _ => rfl) fun _ => Native.respects_pure _

theorem native_startModule (given : String) :
    (startModule given : Native (Services κ) (List Value)).Respects v.Shows := by
  refine .bind (native_host (fun _ => rfl) fun _ => rfl) fun source => ?_
  cases source with
  | none => exact native_raiseText _
  | some source => exact .bind (native_load _ _) fun f => native_callBack f []

theorem native_methodFunction (type name : String) :
    (methodFunction type name : Native (Services κ) Value).Respects v.Shows := by
  refine native_host (fun s => ?_) fun s => ?_
  · simp only
    split <;> rfl
  · simp only
    have hmethods : (v.services s).methods = s.methods := rfl
    rw [hmethods]
    split <;> rfl

theorem native_memberName (args : List Value) :
    (memberName args : Native (Services κ) (Object × String)).Respects v.Shows := by
  rintro _ _ ⟨heap, meter, hpackage, rfl⟩
  exact .done _ (.intro heap meter (View.shows_services hpackage))

/-! ## Members -/

/-- What holds of a member that respects a view. -/
def Member.Respects (v : View) : Member κ → Prop
  | .method _ run => ∀ c : Call, (run c).Respects v
  | .field _ get => ∀ state, (get state).Respects v

/-- Every member of every type respects a view. -/
def Registry.Respects (v : View) (r : Registry κ) : Prop := r.All fun _ _ m => m.Respects v

variable {r : Registry κ} (hr : r.Respects v)

include hr

theorem native_findMember (args : List Value) : (findMember r args).Respects v.Shows := by
  refine .bind (native_memberName args) fun (o, name) => ?_
  simp only
  split
  · exact .bind (native_methodFunction _ _) fun _ => Native.respects_pure _
  · next get _ hmember =>
    have hget : (readField get o.state).Respects v := .bind respects_checkAlive fun _ => hr _ _ _ hmember o.state
    exact .bind (native_perform hget) fun _ => Native.respects_pure _
  · exact native_raiseText _

theorem native_readMember (args : List Value) : (readMember r args).Respects v.Shows := by
  refine .bind (Native.respects_heap _) fun hasRoom => ?_
  cases hasRoom with
  | true => exact native_findMember hr args
  | false => exact native_raiseHost noRoom

theorem respects_callMethod (policy : Trust.Policy) (type name : String) (this : Value) (values : List Value)
    (state : Nat) (shown : List Argument) : (callMethod r policy type name this values state shown).Respects v := by
  refine .bind respects_checkAlive fun _ => ?_
  split
  · next overloads run hmember =>
    simp only
    split
    · exact Action.respects_fail _
    · exact hr _ _ _ hmember _
  · exact Action.respects_fail _

theorem respects_bridgeCall (policy : Trust.Policy) (type name : String) (args : List Value) :
    (bridgeCall r policy type name args).Respects v := by
  unfold bridgeCall
  cases args with
  | nil => exact Action.respects_fail _
  | cons this values =>
    refine .bind (respects_seenAll _) fun shown => ?_
    split
    · exact Action.respects_ite (respects_callMethod hr policy type name _ _ _ _) (Action.respects_fail _)
    · exact Action.respects_fail _

theorem native_hostFunctions (policy : Trust.Policy) (f : Lua.HostFunction) (args : List Value) :
    (hostFunctions r policy f args).Respects v.Shows := by
  cases f with
  | output level => exact native_output level args
  | outputCall =>
    refine .bind (Native.respects_guarded _ _ _) fun answer => ?_
    cases answer with
    | values vs => exact Native.respects_pure _
    | raised t => exact .bind (native_raisedOf t) fun e => native_raiseHost e
  | require => exact .bind (native_textOf _ _) fun name => native_startModule name
  | method type name => exact native_perform (respects_bridgeCall hr policy type name args)
  | member => exact native_readMember hr args
  | setMember =>
    refine .bind (native_memberName args) fun (o, name) => ?_
    simp only
    split
    · exact native_raiseText _
    · exact native_raiseText _
  | objectText => exact .bind (native_host (fun _ => rfl) fun _ => rfl) fun _ => Native.respects_pure _
  | sameObject =>
    unfold hostFunctions sameObject
    refine native_host (fun s => ?_) fun s => ?_
    · split <;> rfl
    · split <;> rfl

/-- Whatever a script can call gives the same, and does the same, to what is seen of the services. -/
theorem native_natives (policy : Trust.Policy) (collector : Lua.Collector) (f : Value) (args : List Value) :
    (natives r policy collector f args).Respects v.Shows := by
  unfold natives Lua.Library.natives
  simp only
  split
  · exact Native.respects_lift _
  · exact Native.respects_lift _
  · exact native_hostFunctions hr policy _ _
  · exact Native.respects_pure _

end Bridge

end ScriptWarden
