import Mailroom.Proofs.Imap.Aftermath
import Mailroom.Proofs.Imap.Lines

/-! When the parts of a command are sent.

A command with strings of announced length is cut behind each announcement, and what follows waits for
the server. A `Stretch` reaches from the end of one such string to the end of the next, which tells the
parts from the whole: `request_eq` and `request_unasked`. While the command runs, each request of the
server brings one part (`converse_sends`, by induction on the frames), so that what has been sent can be
read off the frames at any moment. `literals_wait` puts the two together. -/
namespace Mailroom

/-! ### The parts of a command -/

/-- The bytes of a string of announced length. -/
def Piece.data? : Piece → Option Bytes
  | plain _ => none
  | counted bytes => some bytes

/-- The strings of announced length in a command, in order. -/
def Command.literals (command : Command) : List Bytes := command.arguments.filterMap Piece.data?

/-- What a command says up to the end of a string of announced length: the text in front of its
announcement, and the string. -/
structure Stretch where
  text : Bytes
  data : Bytes

namespace Stretch

/-- The stretch as it goes over the wire. -/
def wire (unasked : Bool) (s : Stretch) : Bytes :=
  s.text ++ Request.announcement unasked s.data.length ++ s.data

/-- The stretches of pieces, the first of which goes on from `text`. What follows the last of them is
`Piece.openLine text pieces`. -/
def ofPieces (text : Bytes) : List Piece → List Stretch
  | [] => []
  | .plain bytes :: rest => ofPieces (text ++ bytes) rest
  | .counted bytes :: rest => ⟨text, bytes⟩ :: ofPieces [] rest

/-- Stretches and what follows them, cut behind each announcement. The first part begins with `data`. -/
def parts (data last : Bytes) : List Stretch → List Bytes
  | [] => [data ++ last]
  | s :: rest => (data ++ s.text ++ Request.announcement false s.data.length) :: parts s.data last rest

variable {pieces : List Piece} {stretches : List Stretch} {s : Stretch} {i : Nat}

theorem map_data (text : Bytes) (pieces : List Piece) :
    (ofPieces text pieces).map Stretch.data = pieces.filterMap Piece.data? := by
  induction pieces generalizing text with
  | nil => rfl
  | cons piece pieces ih =>
    cases piece with
    | plain bytes =>
      rw [ofPieces, ih, List.filterMap_cons_none rfl]
    | counted bytes =>
      rw [ofPieces, List.map_cons, ih]
      rfl

/-- Where nothing waits there is one part. -/
theorem partsFrom_unasked (part text : Bytes) (pieces : List Piece) :
    Request.partsFrom true (part ++ text) pieces =
      [part ++ ((ofPieces text pieces).flatMap (wire true) ++ Piece.openLine text pieces)] := by
  induction pieces generalizing part text with
  | nil => rfl
  | cons piece pieces ih =>
    cases piece with
    | plain bytes =>
      simp only [Request.partsFrom, ofPieces, Piece.openLine, List.append_assoc]
      exact ih part (text ++ bytes)
    | counted bytes =>
      have hrest := ih (part ++ (⟨text, bytes⟩ : Stretch).wire true) []
      simp only [List.append_nil] at hrest
      simp only [Request.partsFrom, ofPieces, Piece.openLine, List.flatMap_cons, if_true]
      simp only [wire, List.append_assoc] at hrest ⊢
      exact hrest

/-- Otherwise there is a part for each announcement, and one more. -/
theorem partsFrom_eq (data text : Bytes) (pieces : List Piece) :
    Request.partsFrom false (data ++ text) pieces =
      parts data (Piece.openLine text pieces) (ofPieces text pieces) := by
  induction pieces generalizing data text with
  | nil => rfl
  | cons piece pieces ih =>
    cases piece with
    | plain bytes =>
      rw [Request.partsFrom, List.append_assoc]
      exact ih data (text ++ bytes)
    | counted bytes =>
      have hrest := ih bytes []
      rw [List.append_nil] at hrest
      simp only [Request.partsFrom, ofPieces, Piece.openLine, parts, Bool.false_eq_true, if_false]
      rw [hrest]

theorem flatten_parts (data last : Bytes) (stretches : List Stretch) :
    (parts data last stretches).flatten = data ++ (stretches.flatMap (wire false) ++ last) := by
  induction stretches generalizing data with
  | nil => simp [parts]
  | cons s rest ih => simp [parts, ih, wire]

theorem length_parts (data last : Bytes) (stretches : List Stretch) :
    (parts data last stretches).length = stretches.length + 1 := by
  induction stretches generalizing data with
  | nil => rfl
  | cons s rest ih => simp [parts, ih]

/-- Every part but the first begins with the string that the part before it announces. -/
theorem parts_announce (h : stretches[i]? = some s) (data last : Bytes) :
    ∃ front back, (parts data last stretches)[i]? =
        some (front ++ Request.announcement false s.data.length) ∧
      (parts data last stretches)[i + 1]? = some (s.data ++ back) := by
  induction stretches generalizing data i with
  | nil => cases h
  | cons first rest ih =>
    cases i with
    | zero =>
      cases h
      cases rest with
      | nil => exact ⟨data ++ s.text, last, rfl, rfl⟩
      | cons second rest =>
        refine ⟨data ++ s.text, second.text ++ Request.announcement false second.data.length, rfl, ?_⟩
        simp [parts]
    | succ i => exact ih h first.data

end Stretch

namespace Command
variable (command : Command) (tag : String)

/-- The pieces of a command after its tag, up to the end of the line. -/
def linePieces : List Piece := .text command.name :: command.arguments ++ [.plain Octet.crlf]

/-- The stretches of a command. -/
def stretches : List Stretch := Stretch.ofPieces (Utf8.encode tag ++ [Octet.space]) command.linePieces

/-- What follows the last string of announced length. -/
def lastStretch : Bytes := Piece.openLine (Utf8.encode tag ++ [Octet.space]) command.linePieces

theorem stretches_data : (command.stretches tag).map Stretch.data = command.literals := by
  have hlast : List.filterMap Piece.data? [.plain Octet.crlf] = [] := rfl
  rw [stretches, Stretch.map_data, linePieces, List.cons_append, List.filterMap_cons_none rfl,
    List.filterMap_append, hlast, List.append_nil, literals]

theorem request_unasked : command.request tag true =
    [(command.stretches tag).flatMap (Stretch.wire true) ++ command.lastStretch tag] :=
  Stretch.partsFrom_unasked [] (Utf8.encode tag ++ [Octet.space]) command.linePieces

theorem request_eq : command.request tag false =
    Stretch.parts [] (command.lastStretch tag) (command.stretches tag) :=
  Stretch.partsFrom_eq [] (Utf8.encode tag ++ [Octet.space]) command.linePieces

end Command

/-! ### What has been sent -/

namespace Connection
variable {command : Command} {tag : String} {frame : Bytes} {frames : List Bytes} {x y : Exchange}

/-- A frame asks for a part exactly if it is heard as a continuation request. -/
theorem asksOn_hear (tag : String) (frame : Bytes) :
    asksOn frame = match hear tag frame with
      | .response (.continuation _) => true
      | _ => false := by
  unfold asksOn hear
  rcases Response.read frame with
    (⟨position, reason⟩ | ⟨cause⟩) | (⟨other, condition, code, text⟩ | data | text)
  · by_cases hfor : isFor tag frame = true <;> by_cases hdata : isData frame = true <;> simp [hfor, hdata]
  · rfl
  · by_cases hother : other = tag <;> simp [hother]
  · rfl
  · rfl

/-- Whether what is heard neither completes the command nor breaks the exchange off. -/
def Heard.isOpen : Heard → Bool
  | .response (.tagged ..) => false
  | .broken _ => false
  | _ => true

theorem not_closes_of_hear {heard : Heard} (h : hear tag frame = heard) (hopen : heard.isOpen = true) :
    ¬ Closes tag frame := by
  intro hcloses
  rw [← h] at hopen
  cases hcloses with
  | completion hread => simp [hear, hread, Heard.isOpen] at hopen
  | malformed hread hfor => simp [hear, hread, hfor, Heard.isOpen] at hopen

/-- The frames that an exchange reads, of which none comes after the completion of the command. By the
time that some of them have been read, as many parts have been sent as these ask for. -/
structure Sends (command : Command) (tag : String) (x : Exchange) (frames heard : List Bytes) : Prop where
  received : ∀ c, frames = heard ++ (converse command tag x c frames).2.incoming
  sent : ∀ c n, (converse command tag x c (frames.take n)).2.written =
    (x.unsent.take (askings (heard.take n))).reverse ++ c.written
  closed : ∀ before f after, heard = before ++ f :: after → Closes tag f → after = []

/-- A frame that ends the exchange is the last that is read. -/
theorem Sends.last (hasks : x.unsent.take (askings [frame]) = [])
    (hend : ∀ c rest, (converse command tag x c (frame :: rest)).2.incoming = rest ∧
      (converse command tag x c (frame :: rest)).2.written = c.written) :
    Sends command tag x (frame :: frames) [frame] where
  received c := by
    rw [(hend c frames).1]
    rfl
  sent c n := by
    cases n with
    | zero => simp [converse, askings]
    | succ n =>
      rw [List.take_succ_cons, List.take_succ_cons, List.take_nil, hasks]
      exact (hend c (frames.take n)).2
  closed := by
    intro before f after hlist _
    cases before with
    | nil => cases hlist; rfl
    | cons g before => simp at hlist

/-- A frame that does not end the exchange is followed by what the rest of the frames bring. -/
theorem Sends.cons {heard : List Bytes} (hopen : ¬ Closes tag frame)
    (hstep : ∀ c rest, ∃ d, converse command tag x c (frame :: rest) = converse command tag y d rest ∧
      ∀ m, (y.unsent.take m).reverse ++ d.written =
        (x.unsent.take (askings [frame] + m)).reverse ++ c.written)
    (h : Sends command tag y frames heard) : Sends command tag x (frame :: frames) (frame :: heard) where
  received c := by
    obtain ⟨d, hrun, -⟩ := hstep c frames
    rw [hrun, List.cons_append]
    exact congrArg (frame :: ·) (h.received d)
  sent c n := by
    cases n with
    | zero => simp [converse, askings]
    | succ n =>
      obtain ⟨d, hrun, hsent⟩ := hstep c (frames.take n)
      rw [List.take_succ_cons, List.take_succ_cons, hrun, h.sent, hsent, askings_cons frame (heard.take n)]
  closed := by
    intro before f after hlist hcloses
    cases before with
    | nil =>
      cases hlist
      exact absurd hcloses hopen
    | cons g before =>
      cases hlist
      exact h.closed before f after rfl hcloses

theorem written_notice (c : Connection) (code : Option Code) : (c.notice code).written = c.written := by
  unfold notice
  split <;> rfl

theorem written_observe (c : Connection) (data : Untagged) : (c.observe data).written = c.written := by
  unfold observe
  split
  · rfl
  · rfl
  · exact written_notice c _
  · rfl

/-- Each request brings the next part, as long as there is one. -/
theorem converse_sends (command : Command) (tag : String) (x : Exchange) (frames : List Bytes) :
    ∃ heard, Sends command tag x frames heard := by
  induction frames generalizing x with
  | nil => exact ⟨[], fun c => rfl, fun c n => by simp [converse, askings], fun _ _ _ h => by simp at h⟩
  | cons frame frames ih =>
    have hasks := asksOn_hear tag frame
    rcases hheard : hear tag frame with (⟨other, condition, code, text⟩ | data | text) | fault | fault | _
    all_goals rw [hheard] at hasks
    · refine ⟨[frame], .last (by simp [askings, hasks]) fun c rest => ?_⟩
      simp only [converse, hheard, true_and]
      split
      · exact written_notice c code
      · rfl
    · obtain ⟨heard, h⟩ := ih (x.note data)
      refine ⟨frame :: heard, .cons (not_closes_of_hear hheard rfl) (fun c rest => ?_) h⟩
      refine ⟨c.observe data, by simp only [converse, hheard], fun m => ?_⟩
      simp [askings, hasks, written_observe, Exchange.note]
    · rcases hunsent : x.unsent with _ | ⟨part, unsent⟩
      · refine ⟨[frame], .last (by simp [hunsent]) fun c rest => ?_⟩
        simp only [converse, hheard, hunsent, true_and]
      · obtain ⟨heard, h⟩ := ih { x with unsent }
        refine ⟨frame :: heard, .cons (not_closes_of_hear hheard rfl) (fun c rest => ?_) h⟩
        refine ⟨c.write part, by simp only [converse, hheard, hunsent], fun m => ?_⟩
        have hone : askings [frame] = 1 := by simp [askings, hasks]
        rw [hone, hunsent, Nat.add_comm 1 m, List.take_succ_cons, List.reverse_cons, List.append_assoc]
        rfl
    · obtain ⟨heard, h⟩ := ih { x with malformed := x.malformed.or (some fault) }
      refine ⟨frame :: heard, .cons (not_closes_of_hear hheard rfl) (fun c rest => ?_) h⟩
      exact ⟨c, by simp only [converse, hheard], fun m => by simp [askings, hasks]⟩
    · refine ⟨[frame], .last (by simp [askings, hasks]) fun c rest => ?_⟩
      simp only [converse, hheard, true_and]
    · obtain ⟨heard, h⟩ := ih x
      refine ⟨frame :: heard, .cons (not_closes_of_hear hheard rfl) (fun c rest => ?_) h⟩
      exact ⟨c, by simp only [converse, hheard], fun m => by simp [askings, hasks]⟩

/-- The connection when only the first `n` frames have arrived. -/
def upTo (c : Connection) (n : Nat) : Connection := { c with incoming := c.incoming.take n }

/-- How many of the frames are continuation requests for which a part of the command waits. -/
def awaited (parts frames : List Bytes) : Nat := min (askings frames) (parts.length - 1)

theorem sent_eq {first : Bytes} {unsent written : List Bytes} {d : Connection}
    (h : d.written = (unsent.take (askings frames)).reverse ++ first :: written) :
    d.sent = written.reverse.flatten ++
      ((first :: unsent).take (1 + awaited (first :: unsent) frames)).flatten := by
  have htake : (first :: unsent).take (1 + awaited (first :: unsent) frames) =
      first :: unsent.take (askings frames) := by
    rw [awaited, Nat.add_comm, List.take_succ_cons, List.length_cons, Nat.add_sub_cancel]
    exact congrArg (first :: ·) List.take_eq_take_min.symm
  rw [Connection.sent, h, htake]
  simp

/-- A request has a part to begin with, and its exchange waits to send the others. -/
theorem execute_begin (command : Command) (tag : String) (unasked : Bool) :
    ∃ first unsent, command.request tag unasked = first :: unsent ∧
      ∀ c : Connection, c.tags.current = tag → c.has .literalPlus = unasked →
        ∃ d, c.execute command = converse command tag ⟨unsent, [], none, none⟩ d c.incoming ∧
          d.written = first :: c.written := by
  obtain ⟨first, unsent, hrequest⟩ : ∃ first unsent, command.request tag unasked = first :: unsent := by
    cases unasked with
    | true => exact ⟨_, [], command.request_unasked tag⟩
    | false =>
      rw [command.request_eq tag]
      cases command.stretches tag with
      | nil => exact ⟨_, _, rfl⟩
      | cons => exact ⟨_, _, rfl⟩
  refine ⟨first, unsent, hrequest, ?_⟩
  intro c htag hunasked
  refine ⟨({ c with tags := c.tags.advance } : Connection).write first, ?_, rfl⟩
  have hsame : ({ c with tags := c.tags.advance } : Connection).has .literalPlus = unasked := hunasked
  simp only [execute, hsame, htag, hrequest]

/-- What a command has sent once so many frames have been read. -/
theorem execute_sends (c : Connection) (command : Command) :
    let parts := command.request c.tags.current (c.has .literalPlus)
    ∃ heard, c.incoming = heard ++ (c.execute command).2.incoming ∧
      (∀ n, ((c.upTo n).execute command).2.sent =
        c.sent ++ (parts.take (1 + awaited parts (heard.take n))).flatten) ∧
      ∀ before f after, heard = before ++ f :: after → Closes c.tags.current f → after = [] := by
  intro parts
  obtain ⟨first, unsent, hparts, hbegin⟩ :=
    execute_begin command c.tags.current (c.has .literalPlus)
  obtain ⟨heard, h⟩ := converse_sends command c.tags.current ⟨unsent, [], none, none⟩ c.incoming
  refine ⟨heard, ?_, fun n => ?_, h.closed⟩
  · obtain ⟨d, hrun, -⟩ := hbegin c rfl rfl
    rw [hrun]
    exact h.received d
  · obtain ⟨d, hrun, hfirst⟩ := hbegin (c.upTo n) rfl rfl
    have hwritten := h.sent d n
    rw [hfirst] at hwritten
    have hsent := sent_eq hwritten
    rw [← hparts] at hsent
    rw [hrun]
    exact hsent

/-- A command is one part if the server takes strings unasked. Otherwise it is cut behind each
announcement of a string, the string begins the next part, and in all the parts say the same but for the
sign that a string need not be asked for. Of these parts as many have been sent, once some frames have
been read, as the server has asked for in them, the first one apart. Nothing is sent after the line that
completes the command, and after the last frame nothing either. -/
theorem literals_wait :
    (∀ (command : Command) (tag : String), ∃ (stretches : List Stretch) (last : Bytes),
      stretches.map Stretch.data = command.literals ∧
      command.request tag true = [stretches.flatMap (Stretch.wire true) ++ last] ∧
      (command.request tag false).flatten = stretches.flatMap (Stretch.wire false) ++ last ∧
      (command.request tag false).length = stretches.length + 1 ∧
      ∀ i s, stretches[i]? = some s → ∃ front back,
        (command.request tag false)[i]? = some (front ++ Request.announcement false s.data.length) ∧
        (command.request tag false)[i + 1]? = some (s.data ++ back)) ∧
    ∀ (c : Connection) (command : Command),
      let parts := command.request c.tags.current (c.has .literalPlus)
      let done := (c.execute command).2
      ∃ heard, c.incoming = heard ++ done.incoming ∧
        done.sent = c.sent ++ (parts.take (1 + awaited parts heard)).flatten ∧
        (∀ n, ((c.upTo n).execute command).2.sent =
          c.sent ++ (parts.take (1 + awaited parts (heard.take n))).flatten) ∧
        ∀ before f after, c.incoming = before ++ f :: after → Closes c.tags.current f →
          done.sent = ((c.upTo before.length).execute command).2.sent := by
  constructor
  · intro command tag
    refine ⟨command.stretches tag, command.lastStretch tag, command.stretches_data tag,
      command.request_unasked tag, ?_, ?_, fun i s hs => ?_⟩
    · rw [command.request_eq tag]
      exact Stretch.flatten_parts [] _ _
    · rw [command.request_eq tag]
      exact Stretch.length_parts [] _ _
    · rw [command.request_eq tag]
      exact Stretch.parts_announce hs [] _
  · intro c command parts done
    obtain ⟨heard, hreceived, hsent, hclosed⟩ := execute_sends c command
    have hall : c.upTo c.incoming.length = c := by
      rw [upTo, List.take_length]
    have hdone : done.sent = c.sent ++ (parts.take (1 + awaited parts heard)).flatten := by
      have hlength : heard.length ≤ c.incoming.length := by
        rw [hreceived, List.length_append]
        exact Nat.le_add_right ..
      have hlast := hsent c.incoming.length
      rwa [hall, List.take_of_length_le hlength] at hlast
    refine ⟨heard, hreceived, hdone, hsent, fun before f after hincoming hcloses => ?_⟩
    have hcount : askings (heard.take before.length) = askings heard := by
      rw [hincoming] at hreceived
      obtain ⟨late, hheard, htail⟩ | ⟨late, hbefore, -⟩ := List.append_eq_append_iff.mp hreceived
      · cases late with
        | nil => rw [hheard, List.append_nil, List.take_length]
        | cons g late =>
          cases htail
          cases hclosed before f late hheard hcloses
          have hquiet : askings [f] = 0 := by
            simpa [askings] using fun hasks => asksOn_not_closes hasks hcloses
          rw [hheard, List.take_left, askings, askings, List.countP_append]
          exact (congrArg (List.countP asksOn before + ·) hquiet).symm
      · rw [List.take_of_length_le (by simp [hbefore])]
    rw [hdone, hsent, awaited, awaited, hcount]

/-- A server that takes its time to ask for a password, and asks once more after its answer. -/
def hesitant : Connection :=
  ⟨[Octet.ofText "* OK hold on\r\n", Octet.ofText "+ go on\r\n", Octet.ofText "A0001 OK done\r\n",
    Octet.ofText "+ more\r\n"], .closed, [], {}, []⟩

/-- The password is sent with the second line and not before. -/
theorem literals_wait_hesitant :
    (∃ front back, ((Command.login "a" "pä").request "A0001" false)[0]? =
        some (front ++ Request.announcement false 3) ∧
      ((Command.login "a" "pä").request "A0001" false)[1]? = some (Utf8.encode "pä" ++ back)) ∧
    ((hesitant.upTo 1).execute (.login "a" "pä")).2.sent = Octet.ofText "A0001 LOGIN a \x7b3\x7d\r\n" ∧
    (hesitant.execute (.login "a" "pä")).2.sent =
      Octet.ofText "A0001 LOGIN a \x7b3\x7d\r\n" ++ Utf8.encode "pä" ++ Octet.crlf ∧
    (hesitant.execute (.login "a" "pä")).2.sent = ((hesitant.upTo 2).execute (.login "a" "pä")).2.sent := by
  refine ⟨?_, by decide +kernel, by decide +kernel, ?_⟩
  · obtain ⟨stretches, last, hdata, -, -, -, hparts⟩ := literals_wait.1 (.login "a" "pä") "A0001"
    have hliterals : (Command.login "a" "pä").literals = [Utf8.encode "pä"] := by decide +kernel
    rw [hliterals] at hdata
    cases stretches with
    | nil => cases hdata
    | cons s rest =>
      have hfirst : s.data = Utf8.encode "pä" := (List.cons.inj hdata).1
      have hlength : (Utf8.encode "pä").length = 3 := by decide +kernel
      have hpart := hparts 0 s rfl
      rwa [hfirst, hlength] at hpart
  · obtain ⟨heard, -, -, -, hclosed⟩ := literals_wait.2 hesitant (.login "a" "pä")
    have hcloses : Closes hesitant.tags.current (Octet.ofText "A0001 OK done\r\n") := by
      have htag : hesitant.tags.current = "A0001" := by decide +kernel
      have hread : Response.read (Octet.ofText "A0001 OK done\r\n") = .ok (.tagged "A0001" .ok none "done") := by
        rfl
      rw [htag]
      exact .completion hread
    exact hclosed [_, _] _ [_] rfl hcloses

end Connection

end Mailroom
