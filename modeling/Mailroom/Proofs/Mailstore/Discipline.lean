import Mailroom.Proofs.Mailstore.Mail
import Mailroom.Proofs.Mailstore.Sharing

/-! What a store holds to, whatever its sessions do.

In every reachable world the next identifier of a folder is one more than the number of messages that were
ever put into it, and above all identifiers that messages in it ever had (`Ordered`): an event lets the
folders go on (`next_goOn`), and that keeps it so. -/
namespace Mailroom.Mailstore
open Folder Session

/-! ### Copies and removals -/

/-- Copies of messages may have come to the folders, and everything else is as it was. -/
structure Copied (folders later : SortedMap String Folder) : Prop where
  mail : ∃ copies : List Message, Mailstore.mail later = Mailstore.mail folders + copies ∧
    ∀ m ∈ copies, m ∈ Mailstore.mail folders
  kept : ∀ name f, folders.find? name = some f → ∃ f', later.find? name = some f' ∧
    ∀ u m, f.messages.find? u = some m → f'.messages.find? u = some m

/-- Messages may be gone from the folder that is open, which were marked deleted, and are among the given
ones if the store can hold a removal to some. Everything else is as it was. -/
structure Expunged (handle : Handle) (uids : UidSet) (folders later : SortedMap String Folder) : Prop where
  same : ∀ name, (later.find? name).isSome = (folders.find? name).isSome
  messages : ∀ name f f', folders.find? name = some f → later.find? name = some f' → ∀ u,
    f'.messages.find? u = f.messages.find? u ∨
    ∃ m, f.messages.find? u = some m ∧ f'.messages.find? u = none ∧ m.has .deleted = true ∧
      handle.selected = some (name, false) ∧ (.uidPlus ∈ handle.capabilities → u ∈ uids)

section
variable {folders : SortedMap String Folder} {name source destination : String} {f : Folder} {uids : UidSet}

theorem Copied.refl (folders : SortedMap String Folder) : Copied folders folders :=
  ⟨⟨[], (add_zero _).symm, by simp⟩, fun _ f hf => ⟨f, hf, fun _ _ h => h⟩⟩

theorem Expunged.refl (handle : Handle) (uids : UidSet) (folders : SortedMap String Folder) :
    Expunged handle uids folders folders where
  same _ := rfl
  messages name f f' hf hf' u := .inl (by rw [Option.some.inj (hf.symm.trans hf')])

/-- Messages that are looked up are there. -/
theorem mem_mail_of_lookup (hf : folders.find? name = some f) {m : Message} (hm : m ∈ f.lookup uids) :
    m ∈ mail folders := by
  rw [← mail_removed hf uids]
  exact Multiset.mem_add.mpr (.inr hm)

theorem copied_transferred (hn : Numbered folders) (hf : folders.find? source = some f)
    (hd : folders.contains destination = true)
    (hroom : ∀ g, folders.find? destination = some g → g.shelf.next + (f.lookup uids).length < UInt32.size) :
    Copied folders (transferred folders source destination f uids false) := by
  refine ⟨⟨f.lookup uids, mail_appended hn hd hroom, fun m => mem_mail_of_lookup hf⟩, ?_⟩
  intro name g hg
  have hfind : (transferred folders source destination f uids false).find? name =
      if name = destination then some (g.appendAll (f.lookup uids)) else some g := by
    show (folders.change destination _).find? name = _
    rw [SortedMap.find?_change, hg]
    rfl
  by_cases hname : name = destination
  · rw [if_pos hname] at hfind
    exact ⟨_, hfind, fun u m => find?_appendAll (hn name g hg) (hroom g (hname ▸ hg))⟩
  · rw [if_neg hname] at hfind
    exact ⟨g, hfind, fun _ _ h => h⟩

theorem expunged_change {handle : Handle} (hs : handle.selected = some (name, false)) :
    Expunged handle uids folders (folders.change name (·.expunge (scope handle.capabilities uids))) := by
  refine ⟨fun other => ?_, ?_⟩
  · exact SortedMap.contains_change ..
  · intro other f f' hf hf' u
    rw [SortedMap.find?_change, hf] at hf'
    split at hf'
    · next hother =>
      cases hf'
      rw [find?_expunge]
      rcases hm : f.messages.find? u with _ | m
      · exact .inl rfl
      · rcases hgone : m.has .deleted && (scope handle.capabilities uids).all (·.contains u) with _ | _
        · exact .inl (by rw [Option.filter_some, hgone]; rfl)
        · refine .inr ⟨m, rfl, by rw [Option.filter_some, hgone]; rfl, ?_⟩
          rw [Bool.and_eq_true] at hgone
          refine ⟨hgone.1, hother ▸ hs, fun hcan => ?_⟩
          have hscope := hgone.2
          rw [scope, if_pos (List.contains_iff_mem.mpr hcan)] at hscope
          exact SortedSet.contains_iff.mp hscope
    · cases hf'
      exact .inl rfl

end

namespace World

/-- Identifiers are given in order, and none a second time. -/
structure Ordered (w : World) : Prop where
  numbered : Numbered w.server.folders
  next : ∀ name f, w.server.folders.find? name = some f → f.shelf.next = (w.annals name).arrivals + 1
  held : ∀ name f, w.server.folders.find? name = some f → ∀ u ∈ (w.annals name).held, u.value < f.shelf.next

variable {w : World} {e : Event}

/-- Also of a folder that is new with the event. -/
theorem Ordered.next_former (h : w.Ordered) (name : String) :
    ((w.server.folders.find? (w.former e name)).getD {}).shelf.next = (w.heritage e name).arrivals + 1 := by
  rcases hf : w.server.folders.find? (w.former e name) with _ | f
  · have hnew : w.server.folders.contains (w.former e name) = false := by
      rw [SortedMap.contains, hf]
      rfl
    rw [heritage, hnew]
    rfl
  · have hthere : w.server.folders.contains (w.former e name) = true := SortedMap.contains_iff.mpr ⟨f, hf⟩
    rw [heritage, if_pos hthere]
    exact h.next _ f hf

theorem Ordered.held_former (h : w.Ordered) (name : String) : ∀ u ∈ (w.heritage e name).held,
    u.value < ((w.server.folders.find? (w.former e name)).getD {}).shelf.next := by
  intro u hu
  rw [heritage] at hu
  split at hu
  · next hthere =>
    obtain ⟨f, hf⟩ := SortedMap.contains_iff.mp hthere
    rw [hf]
    exact h.held _ f hf u hu
  · cases hu

theorem Ordered.room (h : w.Ordered) (hroom : w.HasRoom e) (name : String) :
    ((w.server.folders.find? (w.former e name)).getD {}).shelf.next + (w.brings e name).length <
      UInt32.size := by
  have hlt : (w.heritage e name).arrivals + (w.brings e name).length < UInt32.size - 1 := hroom name
  rw [h.next_former]
  omega

/-- Every event lets the folders go on. -/
theorem Ordered.next_goOn (h : w.Ordered) (hroom : w.HasRoom e) :
    GoOn w.server.folders (w.next e).server.folders (w.former e) (w.brings e) := by
  have hnext := h.room hroom
  rcases hresult : w.result e with err | _
  · rw [next_of_error hresult, former_of_error hresult, brings_of_error hresult]
    exact goOn_same h.numbered
  cases e with
  | deliver folder m =>
    refine goOn_deliver h.numbered m ?_
    have hlt := hnext folder
    rwa [show w.brings (.deliver folder m) folder = [m] from if_pos rfl] at hlt
  | addFolder name =>
    show GoOn w.server.folders (w.server.addFolder name).folders id fun _ => []
    rcases hnew : w.server.folders.contains name with _ | _
    · rw [Server.addFolder, if_neg (by simp [hnew])]
      exact goOn_create h.numbered hnew
    · rw [Server.addFolder, if_pos hnew]
      exact goOn_same h.numbered
  | order => exact goOn_same h.numbered
  | connect =>
    rw [next_connect_folders]
    exact goOn_same h.numbered
  | call i call =>
    rcases w.call_ends i call with ⟨handle, t, hi, hgranted, houtcome⟩ | ⟨err, herr, -⟩
    · rw [former_call hresult, brings_call hi hresult] at hnext ⊢
      have hserver : (w.next (.call i call)).server = t.server := congrArg (·.2.1) houtcome
      rw [hserver]
      exact hgranted.goOn h.numbered hnext
    · rw [herr] at hresult
      cases hresult

theorem Ordered.step (h : w.Ordered) (hroom : w.HasRoom e) : (w.next e).Ordered where
  numbered name f' hf' := (h.next_goOn hroom name f' hf').numbered
  next name f' hf' := by
    rw [(h.next_goOn hroom name f' hf').next, h.next_former]
    show _ = (w.heritage e name).arrivals + (w.brings e name).length + 1
    omega
  held name f' hf' u hu := by
    have hgoOn := h.next_goOn hroom name f' hf'
    rcases hu with hu | ⟨f, m, hf, hm⟩
    · rw [hgoOn.next]
      exact Nat.lt_of_lt_of_le (h.held_former name u hu) (Nat.le_add_right _ _)
    · obtain rfl : f = f' := Option.some.inj (hf.symm.trans hf')
      exact hgoOn.numbered u m hm

theorem Reachable.ordered (h : Reachable w) : w.Ordered := by
  induction h with
  | @start server hnew =>
    have hempty : ∀ name f, server.folders.find? name = some f → f.Numbered ∧ f.shelf.next = 1 := by
      intro name f hf
      rw [hnew name f hf]
      exact ⟨numbered_empty, rfl⟩
    exact ⟨fun name f hf => (hempty name f hf).1, fun name f hf => (hempty name f hf).2, nofun⟩
  | step _ hroom ih => exact ih.step hroom

/-! ### The rules -/

/-- What comes of the event keeps to the rules of the store. -/
structure Disciplined (w : World) (e : Event) : Prop where
  /-- An event that fails changes no folder. -/
  refused : ∀ err, w.result e = .error err → (w.next e).server.folders = w.server.folders
  /-- Behind the messages that stay in a folder stand those that are put in, under identifiers greater than
  all that the folder ever held. -/
  appended : ∀ name f', (w.next e).server.folders.find? name = some f' →
    ∃ stay news, f'.messages.entries = stay ++ news ∧
      (∀ x ∈ stay, ((w.server.folders.find? (w.former e name)).getD {}).Keeps x.1 x.2) ∧
      news.map Prod.snd = w.brings e name ∧
      ∀ x ∈ news, ∀ u ∈ (w.heritage e name).held, u.value < x.1.value
  /-- No message takes the place of another. -/
  kept : ∀ name f f' u m m', w.server.folders.find? (w.former e name) = some f →
    (w.next e).server.folders.find? name = some f' → f.messages.find? u = some m →
    f'.messages.find? u = some m' → m' = m ∨ m' = m.withFlag .deleted
  moves : ∀ i uids destination, e = .call i (.moveMessages uids destination) →
    mail (w.next e).server.folders = mail w.server.folders
  copies : ∀ i uids destination, e = .call i (.copyMessages uids destination) →
    Copied w.server.folders (w.next e).server.folders
  expunges : ∀ i uids handle, e = .call i (.expunge uids) → w.sessions[i]? = some handle →
    Expunged handle uids w.server.folders (w.next e).server.folders

variable {i : Nat} {call : SessionCall}

/-- A call leaves the folders as they are, or as they are where the store grants it. -/
theorem call_folders {P : SortedMap String Folder → Prop} (hsame : P w.server.folders)
    (hgranted : ∀ handle t, w.sessions[i]? = some handle → w.result (.call i call) = .ok () →
      Session.Granted ⟨w.server, handle⟩ call t → P t.server.folders) :
    P (w.next (.call i call)).server.folders := by
  rcases w.call_ends i call with ⟨handle, t, hi, hcall, houtcome⟩ | ⟨err, -, hfolders⟩
  · have hserver : (w.next (.call i call)).server = t.server := congrArg (·.2.1) houtcome
    rw [hserver]
    exact hgranted handle t hi (congrArg Prod.fst houtcome) hcall
  · rwa [hfolders]

/-- There are identifiers left for the messages that a call takes, where it puts them. -/
theorem Ordered.room_arriving (h : w.Ordered) (hroom : w.HasRoom (.call i call)) {handle : Handle}
    (hi : w.sessions[i]? = some handle) (hok : w.result (.call i call) = .ok ()) {source destination : String}
    {readOnly : Bool} {f : Folder} {uids : UidSet} (hopen : HasOpen ⟨w.server, handle⟩ source readOnly f)
    (hformer : formerName call = id)
    (hbrings : Session.brings ⟨w.server, handle⟩ call =
      arrivingIn destination (lookupOpen ⟨w.server, handle⟩ uids))
    (g : Folder) (hg : w.server.folders.find? destination = some g) :
    g.shelf.next + (f.lookup uids).length < UInt32.size := by
  have hlt := h.room hroom destination
  rw [former_call hok, hformer, id, hg, brings_call hi hok, hbrings, lookupOpen_hasOpen hopen, arrivingIn,
    if_pos rfl] at hlt
  exact hlt

theorem Ordered.moves (h : w.Ordered) {uids : UidSet} {destination : String}
    (hroom : w.HasRoom (.call i (.moveMessages uids destination))) :
    mail (w.next (.call i (.moveMessages uids destination))).server.folders = mail w.server.folders := by
  refine call_folders (P := fun folders => mail folders = _) rfl fun handle t hi hok hgranted => ?_
  cases hgranted with
  | idle => rfl
  | moved _ _ hopen _ hd =>
    exact mail_transferred h.numbered hopen.there hd (h.room_arriving hroom hi hok hopen rfl rfl)

theorem Ordered.copies (h : w.Ordered) {uids : UidSet} {destination : String}
    (hroom : w.HasRoom (.call i (.copyMessages uids destination))) :
    Copied w.server.folders (w.next (.call i (.copyMessages uids destination))).server.folders := by
  refine call_folders (P := Copied _) (.refl _) fun handle t hi hok hgranted => ?_
  cases hgranted with
  | idle => exact .refl _
  | copied _ hopen _ hd =>
    exact copied_transferred h.numbered hopen.there hd (h.room_arriving hroom hi hok hopen rfl rfl)

theorem expunges {uids : UidSet} {handle : Handle} (hi : w.sessions[i]? = some handle) :
    Expunged handle uids w.server.folders (w.next (.call i (.expunge uids))).server.folders := by
  refine call_folders (P := Expunged handle uids _) (.refl _ _ _) fun handle' t hi' _ hgranted => ?_
  obtain rfl : handle' = handle := Option.some.inj (hi'.symm.trans hi)
  cases hgranted with
  | idle => exact .refl _ _ _
  | expunged _ hopen => exact expunged_change hopen

theorem Ordered.keeps_rules (h : w.Ordered) (hroom : w.HasRoom e) : w.Disciplined e where
  refused _ := next_of_error
  appended name f' hf' := by
    obtain ⟨stay, news, hentries, hstay, hmessages, hnew⟩ := (h.next_goOn hroom name f' hf').entries
    refine ⟨stay, news, hentries, hstay, hmessages, fun x hx u hu => ?_⟩
    exact Nat.lt_of_lt_of_le (h.held_former name u hu) (hnew x hx)
  kept name f f' u m m' hf hf' hm hm' := by
    obtain ⟨stay, news, hentries, hstay, -, hnew⟩ := (h.next_goOn hroom name f' hf').entries
    rw [hf, Option.getD_some] at hstay hnew
    have hmem := SortedMap.find?_eq_some_iff.mp hm'
    rw [hentries, List.mem_append] at hmem
    rcases hmem with hmem | hmem
    · obtain ⟨m₀, hm₀, hsame⟩ := hstay (u, m') hmem
      rwa [Option.some.inj (hm₀.symm.trans hm)] at hsame
    · -- The new messages stand under identifiers that none in the folder had.
      exact absurd (hnew (u, m') hmem) (Nat.not_le_of_lt (h.numbered _ f hf u m hm))
  moves i uids destination he := by
    subst he
    exact h.moves hroom
  copies i uids destination he := by
    subst he
    exact h.copies hroom
  expunges i uids handle he hi := by
    subst he
    exact expunges hi

/-- In every reachable world the identifiers of the messages in a folder are positive and below the next
one, and whatever happens next keeps to the rules, as long as no folder runs out of identifiers. -/
theorem Reachable.disciplined (h : Reachable w) :
    (∀ name f, w.server.folders.find? name = some f → ∀ u m, f.messages.find? u = some m →
      0 < u.value ∧ u.value < f.nextUid) ∧
    ∀ e, w.HasRoom e → w.Disciplined e := by
  refine ⟨fun name f hf u m hm => ⟨u.positive, ?_⟩, fun e hroom => h.ordered.keeps_rules hroom⟩
  have hpositive := u.positive
  have hbelow : u.value < max f.nextUid 1 := h.ordered.numbered name f hf u m hm
  omega

/-- Where few messages have been put in, there is room for a few more. -/
theorem arrivals_next_le {k n : Nat} (hk : ∀ name, (w.annals name).arrivals ≤ k)
    (hn : ∀ name, (w.brings e name).length ≤ n) (name : String) :
    ((w.next e).annals name).arrivals ≤ k + n := by
  have hheritage : (w.heritage e name).arrivals ≤ k := by
    rw [heritage]
    split
    · exact hk _
    · exact Nat.zero_le k
  exact Nat.add_le_add hheritage (hn name)

theorem length_arrivingIn_le (name : String) (ms : List Message) (other : String) :
    (arrivingIn name ms other).length ≤ ms.length := by
  unfold arrivingIn
  split
  · exact Nat.le_refl _
  · exact Nat.zero_le _

/-- A message is moved to the folder in which it is. -/
theorem Reachable.disciplined_moved_in_place :
    let m : Message := { sender := "ann@b.org", subject := "hi" }
    let w := ((World.next { server := {} } (.deliver "INBOX" m)).next .connect).next
      (.call 0 (.selectFolder "INBOX" false))
    let e := Event.call 0 (.moveMessages (SortedSet.ofList [Uid.least]) "INBOX")
    Reachable w ∧ w.HasRoom e ∧ w.result e = .ok () ∧ w.Disciplined e := by
  intro m w e
  let delivered := World.next { server := {} } (.deliver "INBOX" m)
  have hdelivered : ∀ name, (delivered.annals name).arrivals ≤ 0 + 1 :=
    arrivals_next_le (fun _ => Nat.le_refl 0) (length_arrivingIn_le "INBOX" [m])
  have hconnected : ∀ name, ((delivered.next .connect).annals name).arrivals ≤ 0 + 1 + 0 :=
    arrivals_next_le hdelivered fun _ => Nat.le_refl 0
  have hopened : ∀ name, (w.annals name).arrivals ≤ 0 + 1 + 0 + 0 :=
    arrivals_next_le hconnected fun _ => Nat.le_refl 0
  have hmoved : ∀ name, ((w.next e).annals name).arrivals ≤ 0 + 1 + 0 + 0 + 1 :=
    arrivals_next_le hopened (length_arrivingIn_le "INBOX" [m])
  have hroom : ∀ n, n ≤ 2 → n < UInt32.size - 1 := by decide
  have hstart : Reachable { server := {} } := by
    refine .start fun name f hf => ?_
    rw [SortedMap.find?_insert] at hf
    split at hf
    · exact (Option.some.inj hf).symm
    · cases hf
  have hreachable : Reachable w :=
    ((hstart.step fun name => hroom _ (Nat.le_succ_of_le (hdelivered name))).step
      fun name => hroom _ (Nat.le_succ_of_le (hconnected name))).step
      fun name => hroom _ (Nat.le_succ_of_le (hopened name))
  have he : w.HasRoom e := fun name => hroom _ (hmoved name)
  exact ⟨hreachable, he, rfl, hreachable.disciplined.2 e he⟩

end World

end Mailroom.Mailstore
