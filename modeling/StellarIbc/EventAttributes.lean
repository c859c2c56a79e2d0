import StellarIbc.CoreConversion

/-!
# Event attributes

`crates/core/src/ibc/event.rs`: the text the gateway makes of a contract event, one
attribute a line.  Of the topics only the first is read, and the rest comes from the value.
The text of a packet shows every part that went into it, although the lines of the clients
are left out where a client is empty.
-/

namespace StellarIbc.Core

section

variable (xdr : Xdr)

def firstPayloadPorts (packet : ScMap) : Bytes × Bytes :=
  match scvalField xdr packet (ascii "payloads") with
  | some (.vec payloads) =>
      match payloads.head?.bind scvalAsMap with
      | some payload =>
          (((scvalField xdr payload (ascii "source_port")).bind (scvalAsString xdr)).getD
              (ascii "transfer"),
            ((scvalField xdr payload (ascii "dest_port")).bind (scvalAsString xdr)).getD
              (ascii "transfer"))
      | none => (ascii "transfer", ascii "transfer")
  | _ => (ascii "transfer", ascii "transfer")

/-- The text where the value has a packet. -/
def packetAttributes (kind : Bytes) (packet : ScMap) : Bytes :=
  let sequence := ((scvalField xdr packet (ascii "sequence")).bind scvalAsU64).getD 0
  let sourceClient :=
    ((scvalField xdr packet (ascii "source_client")).bind (scvalAsString xdr)).getD []
  let destClient :=
    ((scvalField xdr packet (ascii "dest_client")).bind (scvalAsString xdr)).getD []
  let (sourcePort, destPort) := firstPayloadPorts xdr packet
  ascii "type=" ++ kind ++ ascii "\npacket_sequence=" ++ decimal sequence.toNat ++ ascii "\n" ++
    (if sourceClient = [] then []
      else ascii "packet_src_channel=" ++ sourceClient ++ ascii "\n") ++
    (if destClient = [] then []
      else ascii "packet_dst_channel=" ++ destClient ++ ascii "\n") ++
    (ascii "packet_src_port=" ++ sourcePort ++ ascii "\npacket_dst_port=" ++ destPort ++
      ascii "\n")

def eventAttributes (topicsXdr : List Bytes) (valueXdr : Bytes) : Option Bytes := do
  let topic ← topicsXdr.head?
  let kind ← (scvalFromXdr xdr topic).toOption.bind (scvalAsSymbol xdr)
  let value ← (scvalFromXdr xdr valueXdr).toOption
  let root ← scvalAsMap value
  match (scvalField xdr root (ascii "packet")).bind scvalAsMap with
  | some packet => return packetAttributes xdr kind packet
  | none =>
      match (scvalField xdr root (ascii "client_id")).bind (scvalAsString xdr) with
      | some clientId =>
          return ascii "type=" ++ kind ++ ascii "\n" ++ (ascii "client_id=" ++ clientId ++
            ascii "\n")
      | none => return ascii "type=" ++ kind ++ ascii "\n"

end

/-! ### Lines -/

def newline : UInt8 := 0x0a

def unlines (lines : List Bytes) : Bytes := lines.flatMap fun line => line ++ [newline]

@[simp] theorem unlines_nil : unlines [] = [] := rfl

@[simp] theorem unlines_cons (line : Bytes) (lines : List Bytes) :
    unlines (line :: lines) = line ++ newline :: unlines lines := by
  rw [unlines, List.flatMap_cons, List.append_assoc]
  rfl

@[simp] theorem unlines_append (lines lines' : List Bytes) :
    unlines (lines ++ lines') = unlines lines ++ unlines lines' :=
  List.flatMap_append

theorem line_append_injective {left right more more' : Bytes} (hleft : newline ∉ left)
    (hright : newline ∉ right) (h : left ++ newline :: more = right ++ newline :: more') :
    left = right ∧ more = more' := by
  induction left generalizing right with
  | nil =>
      cases right with
      | nil => exact ⟨rfl, (List.cons_eq_cons.mp h).2⟩
      | cons byte right =>
          rw [(List.cons_eq_cons.mp h).1] at hright
          exact absurd List.mem_cons_self hright
  | cons byte left ih =>
      cases right with
      | nil =>
          rw [← (List.cons_eq_cons.mp h).1] at hleft
          exact absurd List.mem_cons_self hleft
      | cons byte' right =>
          obtain ⟨rfl, hrest⟩ := List.cons_eq_cons.mp h
          obtain ⟨rfl, hmore⟩ := ih (List.not_mem_of_not_mem_cons hleft)
            (List.not_mem_of_not_mem_cons hright) hrest
          exact ⟨rfl, hmore⟩

theorem unlines_injective {lines lines' : List Bytes} (hlines : ∀ line ∈ lines, newline ∉ line)
    (hlines' : ∀ line ∈ lines', newline ∉ line) (h : unlines lines = unlines lines') :
    lines = lines' := by
  induction lines generalizing lines' with
  | nil =>
      cases lines' with
      | nil => rfl
      | cons line' lines' =>
          rw [unlines_cons] at h
          exact absurd h.symm (List.append_ne_nil_of_right_ne_nil _ (List.cons_ne_nil _ _))
  | cons line lines ih =>
      cases lines' with
      | nil =>
          rw [unlines_cons] at h
          exact absurd h (List.append_ne_nil_of_right_ne_nil _ (List.cons_ne_nil _ _))
      | cons line' lines' =>
          rw [List.forall_mem_cons] at hlines hlines'
          rw [unlines_cons, unlines_cons] at h
          obtain ⟨rfl, hrest⟩ := line_append_injective hlines.1 hlines'.1 h
          rw [ih hlines.2 hlines'.2 hrest]

/-- A line that is left out where there is no value. -/
def optionalLine (key value : Bytes) : List Bytes := if value = [] then [] else [key ++ value]

@[simp] theorem unlines_optionalLine (key value : Bytes) :
    unlines (optionalLine key value) =
      if value = [] then [] else key ++ value ++ [newline] := by
  unfold optionalLine
  split
  · rfl
  · rw [unlines_cons, unlines_nil]

/-- Whether the line is there can be seen where none of the lines behind it has its key. -/
theorem optionalLine_append_injective {key value value' : Bytes} {rest rest' : List Bytes}
    (hrest : ∀ line ∈ rest, ¬ key <+: line) (hrest' : ∀ line ∈ rest', ¬ key <+: line)
    (h : optionalLine key value ++ rest = optionalLine key value' ++ rest') :
    value = value' ∧ rest = rest' := by
  unfold optionalLine at h
  by_cases hempty : value = []
  · rw [if_pos hempty] at h
    by_cases hempty' : value' = []
    · rw [if_pos hempty'] at h
      exact ⟨hempty.trans hempty'.symm, h⟩
    · rw [if_neg hempty', List.nil_append] at h
      exact absurd (List.prefix_append key value') (hrest _ (h ▸ List.mem_cons_self))
  · rw [if_neg hempty] at h
    by_cases hempty' : value' = []
    · rw [if_pos hempty', List.nil_append] at h
      exact absurd (List.prefix_append key value) (hrest' _ (h ▸ List.mem_cons_self))
    · rw [if_neg hempty'] at h
      obtain ⟨hline, htail⟩ := List.cons_eq_cons.mp h
      exact ⟨List.append_cancel_left hline, htail⟩

theorem not_prefix_append {key key' : Bytes} (hkey : ¬ key <+: key') (hkey' : ¬ key' <+: key)
    (value : Bytes) : ¬ key <+: key' ++ value := by
  intro hprefix
  rcases List.prefix_or_prefix_of_prefix hprefix (List.prefix_append key' value) with h | h
  · exact hkey h
  · exact hkey' h

/-! ### The text of a packet -/

/-- What the text of a packet is made of. -/
structure PacketText where
  kind : Bytes
  sequence : Bytes
  sourceClient : Bytes
  destClient : Bytes
  sourcePort : Bytes
  destPort : Bytes

namespace PacketText

def portLines (text : PacketText) : List Bytes :=
  [ascii "packet_src_port=" ++ text.sourcePort, ascii "packet_dst_port=" ++ text.destPort]

def destLines (text : PacketText) : List Bytes :=
  optionalLine (ascii "packet_dst_channel=") text.destClient ++ text.portLines

def lines (text : PacketText) : List Bytes :=
  (ascii "type=" ++ text.kind) :: (ascii "packet_sequence=" ++ text.sequence) ::
    (optionalLine (ascii "packet_src_channel=") text.sourceClient ++ text.destLines)

theorem no_dest_key (text : PacketText) :
    ∀ line ∈ text.portLines, ¬ ascii "packet_dst_channel=" <+: line := by
  rw [portLines, List.forall_mem_cons, List.forall_mem_singleton]
  exact ⟨not_prefix_append (by decide) (by decide) _,
    not_prefix_append (by decide) (by decide) _⟩

theorem no_source_key (text : PacketText) :
    ∀ line ∈ text.destLines, ¬ ascii "packet_src_channel=" <+: line := by
  rw [destLines, List.forall_mem_append, portLines, List.forall_mem_cons,
    List.forall_mem_singleton]
  refine ⟨?_, not_prefix_append (by decide) (by decide) _,
    not_prefix_append (by decide) (by decide) _⟩
  unfold optionalLine
  split
  · intro line hline
    cases hline
  · rw [List.forall_mem_singleton]
    exact not_prefix_append (by decide) (by decide) _

theorem lines_injective : Function.Injective lines := by
  intro text text' h
  obtain ⟨hkind, h⟩ := List.cons_eq_cons.mp h
  obtain ⟨hsequence, h⟩ := List.cons_eq_cons.mp h
  obtain ⟨hsource, h⟩ := optionalLine_append_injective text.no_source_key text'.no_source_key h
  obtain ⟨hdest, h⟩ := optionalLine_append_injective text.no_dest_key text'.no_dest_key h
  obtain ⟨hsourcePort, h⟩ := List.cons_eq_cons.mp h
  have hdestPort := List.singleton_inj.mp h
  cases text
  cases text'
  rw [mk.injEq]
  exact ⟨List.append_cancel_left hkind, List.append_cancel_left hsequence, hsource, hdest,
    List.append_cancel_left hsourcePort, List.append_cancel_left hdestPort⟩

/-- No part contains a line break. -/
structure OneLine (text : PacketText) : Prop where
  kind : newline ∉ text.kind
  sequence : newline ∉ text.sequence
  sourceClient : newline ∉ text.sourceClient
  destClient : newline ∉ text.destClient
  sourcePort : newline ∉ text.sourcePort
  destPort : newline ∉ text.destPort

theorem newline_not_mem_append {left right : Bytes} (hleft : newline ∉ left)
    (hright : newline ∉ right) : newline ∉ left ++ right := by
  rw [List.mem_append]
  rintro (h | h)
  · exact hleft h
  · exact hright h

theorem newline_not_mem_lines {text : PacketText} (h : text.OneLine) :
    ∀ line ∈ text.lines, newline ∉ line := by
  have hoptional : ∀ {key value : Bytes}, newline ∉ key → newline ∉ value →
      ∀ line ∈ optionalLine key value, newline ∉ line := by
    intro key value hkey hvalue
    unfold optionalLine
    split
    · intro line hline
      cases hline
    · rw [List.forall_mem_singleton]
      exact newline_not_mem_append hkey hvalue
  rw [lines, List.forall_mem_cons, List.forall_mem_cons, List.forall_mem_append, destLines,
    List.forall_mem_append, portLines, List.forall_mem_cons, List.forall_mem_singleton]
  exact ⟨newline_not_mem_append (by decide) h.kind,
    newline_not_mem_append (by decide) h.sequence,
    hoptional (by decide) h.sourceClient, hoptional (by decide) h.destClient,
    newline_not_mem_append (by decide) h.sourcePort,
    newline_not_mem_append (by decide) h.destPort⟩

/-- **The text of a packet determines its parts.** -/
theorem unlines_lines_injective {text text' : PacketText} (h : text.OneLine) (h' : text'.OneLine)
    (heq : unlines text.lines = unlines text'.lines) : text = text' :=
  lines_injective (unlines_injective (newline_not_mem_lines h) (newline_not_mem_lines h') heq)

end PacketText

end StellarIbc.Core
