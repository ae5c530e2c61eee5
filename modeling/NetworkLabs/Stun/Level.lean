import NetworkLabs.Stun.ConeLevel
import NetworkLabs.Stun.Walk

/-!
# The levels that are reported

A level of the NAT is only reported after a datagram that did not come from where the request
went: from another port of the server for a restricted cone, and from another address for a
full cone. Which datagrams come in, and what they hold, does not matter for this.
-/

namespace NetworkLabs.Stun.ConeLevel

open Foundations

/-- The bytes of the address of the server, in network order. -/
def originalServer : List Byte := [77, 72, 169, 210]

/-- The text of the source is the address of the server in dotted decimal notation. -/
theorem originalServerIpv4_eq : originalServerIpv4 = dottedDecimal originalServer := by decide

/-- A sender other than the place that all requests go to, at the address of the server or not. -/
def Elsewhere (order : ByteOrder) (source : Host.SockaddrIn) (sameAddress : Bool) : Prop :=
  source.sinPort ≠ Host.htons order originalServerPort ∧
    (order.store 4 source.sAddr = originalServer ↔ sameAddress = true)

/-- A report that is a level is shown by one of the senders; the other reports are no levels. -/
def Shown (order : ByteOrder) (sources : List Host.SockaddrIn) : Report → Prop
  | .fullCone _ _ => ∃ source ∈ sources, Elsewhere order source false
  | .restrictedCone _ _ => ∃ source ∈ sources, Elsewhere order source true
  | _ => True

/-- The address of the sender is known, and its text. -/
structure Named (order : ByteOrder) (source : Host.SockaddrIn) (s : State) : Prop where
  sender : s.serverAddrHolder = some source
  text : HoldsText nul s.serverHostnameHolder (dottedDecimal (order.store 4 source.sAddr))

variable {order : ByteOrder} {sources : List Host.SockaddrIn} {source : Host.SockaddrIn}
  {s t : State} {location : ℕ}

/-- One more report, which must be one that the senders show. -/
theorem shown_print {report : Report} (hs : ∀ r ∈ s.printed, Shown order sources r)
    (hreport : Shown order sources report) :
    ∀ r ∈ (s.print report).printed, Shown order sources r := by
  intro r hr
  rcases List.mem_append.mp hr with hr | hr
  · exact hs r hr
  · rw [List.mem_singleton.mp hr]
    exact hreport

/-- The text of the sender is the one of the server exactly when the addresses are the same. -/
theorem Named.sameText_iff (h : Named order source s) :
    sameText nul inetAddrstrlen (s.serverHostnameHolder.read 0 inetAddrstrlen)
      (originalServerIpv4 ++ [nul]) = true ↔ order.store 4 source.sAddr = originalServer := by
  have hlength : (order.store 4 source.sAddr).length = 4 := order.length_store 4 _
  obtain ⟨b, bs, hbytes⟩ := List.exists_cons_of_length_eq_add_one hlength
  have hle := length_dottedDecimal_le b bs
  have hfits : (dottedDecimal (order.store 4 source.sAddr)).length < inetAddrstrlen := by
    rw [hbytes, List.length_cons] at hlength
    rw [hbytes, inetAddrstrlen]
    omega
  have hne : order.store 4 source.sAddr ≠ [] := by simp [hbytes]
  obtain ⟨rest, hread⟩ := h.text.read_eq hfits
  rw [hread, originalServerIpv4_eq, sameText_append (nul_notMem_dottedDecimal _)
    (nul_notMem_dottedDecimal _) hfits]
  constructor
  · exact dottedDecimal_injective hne (by decide)
  · exact congrArg dottedDecimal

/-- What the response means is judged by where it came from. -/
theorem Named.shown_judge (h : Named order source s) (hsource : source ∈ sources)
    (hs : ∀ r ∈ s.printed, Shown order sources r) :
    ∀ r ∈ (s.judge order).printed, Shown order sources r := by
  have hport : s.serverPort = source.sinPort := by rw [State.serverPort, h.sender]
  have hsame := h.sameText_iff
  rw [State.judge, hport]
  split_ifs with hother htext
  · refine shown_print hs ⟨source, hsource, hother.symm, ?_⟩
    rw [← hsame]
    exact ⟨fun _ => rfl, fun _ => htext⟩
  · refine shown_print hs ⟨source, hsource, hother.symm, ?_⟩
    rw [← hsame]
    exact ⟨fun h => absurd h htext, fun h => absurd h Bool.false_ne_true⟩
  · exact hs

/-- The sender is not forgotten by the judging of its response. -/
theorem judge_sender : (s.judge order).serverAddrHolder = s.serverAddrHolder ∧
    (s.judge order).serverHostnameHolder = s.serverHostnameHolder := by
  rw [State.judge]
  split_ifs <;> exact ⟨rfl, rfl⟩

/-- Processing an attribute reports no level but one that the sender shows. -/
theorem Named.processAttribute (h : Named order source s ∧ ∀ r ∈ s.printed, Shown order sources r)
    (hsource : source ∈ sources) (ht : processAttribute order s location = .ok t) :
    Named order source t ∧ ∀ r ∈ t.printed, Shown order sources r := by
  obtain ⟨hnamed, hs⟩ := h
  rw [ConeLevel.processAttribute] at ht
  split_ifs at ht <;> cases ht
  · have hfound : Named order source (s.found order .mappedAddress location) :=
      ⟨hnamed.sender, hnamed.text⟩
    refine ⟨⟨judge_sender.1.trans hfound.sender, ?_⟩, ?_⟩
    · rw [judge_sender.2]
      exact hfound.text
    · exact hfound.shown_judge hsource (shown_print hs trivial)
  all_goals exact ⟨⟨hnamed.sender, hnamed.text⟩, shown_print hs trivial⟩

/-- The sender of a datagram is named when it has come in. -/
theorem named_recvfrom (s : State) (source : Host.SockaddrIn) (bytes : List Byte) :
    Named order source ((recvfrom s (.datagram source bytes)).1.nameSender order) :=
  ⟨rfl, holdsText_write _ (nul_notMem_dottedDecimal _)⟩

/-- What is printed when a datagram has come in, or nothing, is no level. -/
theorem shown_recvfrom (hs : ∀ r ∈ s.printed, Shown order sources r) (arrival : Arrival) :
    ∀ r ∈ ((recvfrom s arrival).1.nameSender order).printed, Shown order sources r := by
  cases arrival with
  | failed => exact shown_print hs trivial
  | datagram source bytes => exact shown_print (s := (recvfrom s _).1) hs trivial

end NetworkLabs.Stun.ConeLevel
