import Mathlib.Data.List.Basic
import QuasarDB.Core.TcpClient

set_option autoImplicit false

/-! # Messages arrive as they were sent

However the bytes of some messages are cut into pieces on their way, and wherever they end, what is
received is the messages that have arrived completely. -/

namespace QuasarDB.Core

open Prog

/-! ## Sending -/

namespace Socket

/-- A send that succeeds has sent everything. -/
theorem sendLoop_eq {taken : List Nat} {data : List UInt8} (h : (sendLoop taken data).1 = true) :
    (sendLoop taken data).2 = data := by
  induction taken generalizing data with
  | nil =>
      cases data with
      | nil => rfl
      | cons byte data => exact absurd h (by simp [sendLoop])
  | cons n taken ih =>
      cases data with
      | nil => rfl
      | cons byte data =>
          by_cases hn : n = 0
          · exact absurd h (by simp [sendLoop, hn])
          · simp only [sendLoop, if_neg hn] at h ⊢
            rw [ih h, List.take_append_drop]

/-! ## Receiving bytes -/

/-- The bytes that will arrive, in pieces that are not empty. -/
structure Carries (socket : Socket) (bytes : List UInt8) : Prop where
  isValid : socket.isValid = true
  bytes : socket.arriving.flatten = bytes
  pieces : [] ∉ socket.arriving

theorem recvLoop_of_le {arriving : List (List UInt8)} (hpieces : [] ∉ arriving) {size : Nat}
    (hsize : size ≤ arriving.flatten.length) :
    ∃ later, recvLoop size arriving = (some (arriving.flatten.take size), later) ∧
      later.flatten = arriving.flatten.drop size ∧ [] ∉ later := by
  induction arriving generalizing size with
  | nil =>
      obtain rfl : size = 0 := Nat.le_zero.1 hsize
      exact ⟨[], rfl, rfl, hpieces⟩
  | cons piece arriving ih =>
      cases size with
      | zero => exact ⟨piece :: arriving, rfl, rfl, hpieces⟩
      | succ size =>
          have hpiece : piece.length ≠ 0 := by
            intro hzero
            exact hpieces (List.length_eq_zero_iff.1 hzero ▸ List.mem_cons_self)
          rw [List.flatten_cons, recvLoop, if_neg hpiece]
          by_cases hle : piece.length ≤ size + 1
          · have hrest : size + 1 - piece.length ≤ arriving.flatten.length := by
              rw [List.flatten_cons, List.length_append] at hsize
              omega
            obtain ⟨later, hrun, hlater, hne⟩ :=
              ih (fun hmem => hpieces (List.mem_cons_of_mem _ hmem)) hrest
            refine ⟨later, ?_, ?_, hne⟩
            · rw [if_pos hle, hrun, List.take_append, List.take_of_length_le hle]
              rfl
            · rw [hlater, List.drop_append, List.drop_of_length_le hle, List.nil_append]
          · have hlt : size + 1 ≤ piece.length := by omega
            refine ⟨piece.drop (size + 1) :: arriving, ?_, ?_, ?_⟩
            · rw [if_neg hle, List.take_append_of_le_length hlt]
            · rw [List.flatten_cons, List.drop_append_of_le_length hlt]
            · rw [List.mem_cons, not_or]
              refine ⟨fun hnil => hle ?_, fun hmem => hpieces (List.mem_cons_of_mem _ hmem)⟩
              exact List.drop_eq_nil_iff.1 hnil.symm

theorem recvLoop_of_lt {arriving : List (List UInt8)} (hpieces : [] ∉ arriving) {size : Nat}
    (hsize : arriving.flatten.length < size) : recvLoop size arriving = (none, []) := by
  induction arriving generalizing size with
  | nil =>
      obtain ⟨size, rfl⟩ := Nat.exists_eq_succ_of_ne_zero (Nat.ne_zero_of_lt hsize)
      rfl
  | cons piece arriving ih =>
      obtain ⟨size, rfl⟩ := Nat.exists_eq_succ_of_ne_zero (Nat.ne_zero_of_lt hsize)
      rw [List.flatten_cons, List.length_append] at hsize
      have hpiece : piece.length ≠ 0 := by
        intro hzero
        exact hpieces (List.length_eq_zero_iff.1 hzero ▸ List.mem_cons_self)
      have hrest : arriving.flatten.length < size + 1 - piece.length := by omega
      rw [recvLoop, if_neg hpiece, if_pos (by omega),
        ih (fun hmem => hpieces (List.mem_cons_of_mem _ hmem)) hrest]
      rfl

variable {socket : Socket} {data more : List UInt8} {size : Nat}

theorem run_recv (h : socket.Carries (data ++ more)) (hsize : data.length = size) :
    ∃ socket', recv size socket = .ok (some data) socket' ∧ socket'.Carries more := by
  subst hsize
  have hle : data.length ≤ socket.arriving.flatten.length := by
    rw [h.bytes, List.length_append]
    omega
  obtain ⟨later, hrun, hlater, hne⟩ := recvLoop_of_le h.pieces hle
  rw [h.bytes, List.take_left] at hrun
  rw [h.bytes, List.drop_left] at hlater
  refine ⟨{ socket with arriving := later }, ?_, h.isValid, hlater, hne⟩
  rw [recv, run_get_bind, if_pos h.isValid, hrun]
  rfl

theorem run_recv_short (h : socket.Carries data) (hsize : data.length < size) :
    ∃ socket', recv size socket = .ok none socket' ∧ socket'.Carries [] := by
  have hlt : socket.arriving.flatten.length < size := by rwa [h.bytes]
  refine ⟨{ socket with arriving := [] }, ?_, h.isValid, rfl, List.not_mem_nil⟩
  rw [recv, run_get_bind, if_pos h.isValid, recvLoop_of_lt h.pieces hlt]
  rfl

end Socket

@[simp] theorem length_networkBytes (n : UInt32) : (networkBytes n).length = 4 := by
  rw [networkBytes, List.length_reverse, length_wordBytes]

@[simp] theorem wordOfNetwork_networkBytes (n : UInt32) : wordOfNetwork (networkBytes n) = n := by
  rw [wordOfNetwork, networkBytes, List.reverse_reverse, wordOfBytes_wordBytes]

namespace TcpClient

variable {text : MessageText}

/-- A message on its way: the text, with its size before it. -/
def frame (text : MessageText) (json : Json) : List UInt8 :=
  networkBytes (.ofNat (text.dump json).length) ++ text.dump json

/-- What a successful send puts on its way. -/
theorem send_eq {header payload : List Nat} {request : Json}
    (h : (send text header payload request).1 = true) :
    (send text header payload request).2 = frame text request := by
  by_cases hsize : 2 ^ 32 - 1 < (text.dump request).length
  · rw [send, if_pos hsize] at h
    cases h
  · simp only [send, if_neg hsize] at h ⊢
    by_cases hheader : (Socket.sendLoop header
        (networkBytes (.ofNat (text.dump request).length))).1 = true
    · simp only [if_pos hheader] at h ⊢
      rw [Socket.sendLoop_eq hheader, Socket.sendLoop_eq h, frame]
    · simp only [if_neg hheader] at h
      exact absurd h hheader

/-! ## Receiving messages -/

/-- The message can be read back from its text, and its size is a 32-bit number. -/
structure Readable (text : MessageText) (json : Json) : Prop where
  parse : text.parse (text.dump json) = .value json
  size : (text.dump json).length < 2 ^ 32

section Receive

variable {json : Json} {socket : Socket} {more : List UInt8}

theorem run_receive (hempty : text.parse [] = .parseError) (h : Readable text json)
    (hsocket : socket.Carries (frame text json ++ more)) :
    ∃ socket', receive text socket = .ok (some json) socket' ∧ socket'.Carries more := by
  have hne : (text.dump json).length ≠ 0 := by
    intro hzero
    have hparse := h.parse
    rw [List.length_eq_zero_iff.1 hzero, hempty] at hparse
    cases hparse
  have hsize : (UInt32.ofNat (text.dump json).length).toNat = (text.dump json).length := by
    rw [UInt32.toNat_ofNat', Nat.mod_eq_of_lt h.size]
  have hword : UInt32.ofNat (text.dump json).length ≠ 0 := by
    intro hzero
    rw [hzero] at hsize
    exact hne hsize.symm
  rw [frame, List.append_assoc] at hsocket
  obtain ⟨middle, hheader, hmiddle⟩ := Socket.run_recv hsocket (length_networkBytes _)
  obtain ⟨socket', hpayload, hsocket'⟩ := Socket.run_recv hmiddle hsize.symm
  refine ⟨socket', ?_, hsocket'⟩
  rw [receive, bind_ok hheader]
  simp only [wordOfNetwork_networkBytes, if_neg hword]
  rw [bind_ok hpayload]
  simp only [h.parse]
  rfl

/-- A message that has not arrived completely is not received. -/
theorem run_receive_cut (h : (text.dump json).length < 2 ^ 32) {cut : Nat}
    (hcut : cut < (frame text json).length)
    (hsocket : socket.Carries ((frame text json).take cut)) :
    ∃ socket', receive text socket = .ok none socket' ∧ socket'.Carries [] := by
  by_cases hheader : cut < 4
  · -- the size is not complete
    have hshort : ((frame text json).take cut).length < 4 := by
      rw [List.length_take]
      omega
    obtain ⟨socket', hrun, hsocket'⟩ := Socket.run_recv_short hsocket hshort
    refine ⟨socket', ?_, hsocket'⟩
    rw [receive, bind_ok hrun]
    rfl
  · have htake : (frame text json).take cut =
        networkBytes (.ofNat (text.dump json).length) ++ (text.dump json).take (cut - 4) := by
      rw [frame, List.take_append, List.take_of_length_le, length_networkBytes]
      rw [length_networkBytes]
      omega
    rw [frame, List.length_append, length_networkBytes] at hcut
    have hsize : (UInt32.ofNat (text.dump json).length).toNat = (text.dump json).length := by
      rw [UInt32.toNat_ofNat', Nat.mod_eq_of_lt h]
    have hword : UInt32.ofNat (text.dump json).length ≠ 0 := by
      intro hzero
      have hnat : (0 : UInt32).toNat = (text.dump json).length := hzero ▸ hsize
      rw [UInt32.toNat_zero] at hnat
      omega
    have hshort : ((text.dump json).take (cut - 4)).length <
        (UInt32.ofNat (text.dump json).length).toNat := by
      rw [hsize, List.length_take]
      omega
    rw [htake] at hsocket
    obtain ⟨middle, hsizeRun, hmiddle⟩ := Socket.run_recv hsocket (length_networkBytes _)
    obtain ⟨socket', hpayload, hsocket'⟩ := Socket.run_recv_short hmiddle hshort
    refine ⟨socket', ?_, hsocket'⟩
    rw [receive, bind_ok hsizeRun]
    simp only [wordOfNetwork_networkBytes, if_neg hword]
    rw [bind_ok hpayload]
    rfl

/-- At the end of the stream nothing is received any more. -/
theorem run_receives_nothing (text : MessageText) (hsocket : socket.Carries []) (count : Nat) :
    ∃ socket', receives text count socket = .ok (List.replicate count none) socket' := by
  induction count generalizing socket with
  | zero => exact ⟨socket, rfl⟩
  | succ count ih =>
      obtain ⟨middle, hshort, hmiddle⟩ := Socket.run_recv_short hsocket (show 0 < 4 by decide)
      have hfirst : receive text socket = .ok none middle := by
        rw [receive, bind_ok hshort]
        rfl
      obtain ⟨socket', hrest⟩ := ih hmiddle
      refine ⟨socket', ?_⟩
      rw [receives, bind_ok hfirst, bind_ok hrest]
      rfl

end Receive

/-! ## A whole stream -/

/-- The messages whose frames are complete in the first `cut` bytes of a stream. -/
def arrived (text : MessageText) : Nat → List Json → List Json
  | _, [] => []
  | cut, json :: later =>
      if (frame text json).length ≤ cut then
        json :: arrived text (cut - (frame text json).length) later
      else []

theorem arrived_all {cut : Nat} {values : List Json}
    (h : (values.flatMap (frame text)).length ≤ cut) : arrived text cut values = values := by
  induction values generalizing cut with
  | nil => rfl
  | cons json values ih =>
      rw [List.flatMap_cons, List.length_append] at h
      rw [arrived, if_pos (by omega), ih (by omega)]

theorem run_receives (hempty : text.parse [] = .parseError) {values : List Json}
    (h : ∀ json ∈ values, Readable text json) {cut : Nat} {socket : Socket}
    (hsocket : socket.Carries ((values.flatMap (frame text)).take cut)) (more : Nat) :
    ∃ socket', receives text ((arrived text cut values).length + more) socket =
      .ok ((arrived text cut values).map some ++ List.replicate more none) socket' := by
  induction values generalizing cut socket with
  | nil =>
      rw [List.flatMap_nil, List.take_nil] at hsocket
      simpa [arrived] using run_receives_nothing text hsocket more
  | cons json values ih =>
      obtain ⟨hjson, hvalues⟩ := List.forall_mem_cons.1 h
      by_cases hcut : (frame text json).length ≤ cut
      · rw [List.flatMap_cons, List.take_append, List.take_of_length_le hcut] at hsocket
        obtain ⟨middle, hfirst, hmiddle⟩ := run_receive hempty hjson hsocket
        obtain ⟨socket', hrest⟩ := ih hvalues hmiddle
        refine ⟨socket', ?_⟩
        rw [arrived, if_pos hcut, List.length_cons, Nat.succ_add, receives, bind_ok hfirst,
          bind_ok hrest]
        rfl
      · have hlt : cut < (frame text json).length := Nat.lt_of_not_le hcut
        rw [List.flatMap_cons, List.take_append_of_le_length (Nat.le_of_lt hlt)] at hsocket
        -- the call on the message that is cut off gives nothing, as do the calls after it
        have hnothing : ∃ socket', receives text more socket =
            .ok (List.replicate more none) socket' := by
          cases more with
          | zero => exact ⟨socket, rfl⟩
          | succ more =>
              obtain ⟨middle, hfirst, hmiddle⟩ := run_receive_cut hjson.size hlt hsocket
              obtain ⟨socket', hrest⟩ := run_receives_nothing text hmiddle more
              refine ⟨socket', ?_⟩
              rw [receives, bind_ok hfirst, bind_ok hrest]
              rfl
        rw [arrived, if_neg hcut]
        simpa using hnothing

/-- A message that is sent, with what the calls of `::send` take of its size and of its text. -/
structure Transmission where
  request : Json
  header : List Nat
  payload : List Nat

/-- How sending it ends, and the bytes that are on their way then. -/
def Transmission.sent (text : MessageText) (transmission : Transmission) : Bool × List UInt8 :=
  send text transmission.header transmission.payload transmission.request

/-- What is received of messages that were sent, however their bytes are cut into pieces: all of them,
    or, of a stream that ends after `cut` bytes, those whose frames are complete. -/
theorem receives_sent {transmissions : List Transmission} {socket : Socket}
    (hempty : text.parse [] = .parseError)
    (hparse : ∀ t ∈ transmissions, text.parse (text.dump t.request) = .value t.request)
    (hsize : ∀ t ∈ transmissions, (text.dump t.request).length < 2 ^ 32)
    (hsent : ∀ t ∈ transmissions, (t.sent text).1 = true)
    (hvalid : socket.isValid = true) (hpieces : [] ∉ socket.arriving) :
    (socket.arriving.flatten = transmissions.flatMap (fun t => (t.sent text).2) →
      ∀ more, ∃ socket', receives text (transmissions.length + more) socket =
        .ok (transmissions.map (fun t => some t.request) ++ List.replicate more none) socket') ∧
    ∀ cut, socket.arriving.flatten = (transmissions.flatMap fun t => (t.sent text).2).take cut →
      ∀ more, ∃ socket',
        receives text ((arrived text cut (transmissions.map (·.request))).length + more) socket =
          .ok ((arrived text cut (transmissions.map (·.request))).map some ++
            List.replicate more none) socket' := by
  have hstream : transmissions.flatMap (fun t => (t.sent text).2) =
      (transmissions.map (·.request)).flatMap (frame text) := by
    rw [List.flatMap_map]
    exact List.flatMap_congr fun t ht => send_eq (hsent t ht)
  have hreadable : ∀ json ∈ transmissions.map (·.request), Readable text json := by
    intro json hjson
    obtain ⟨t, ht, rfl⟩ := List.mem_map.1 hjson
    exact ⟨hparse t ht, hsize t ht⟩
  rw [hstream]
  refine ⟨fun hbytes more => ?_, fun cut hbytes more =>
    run_receives hempty hreadable ⟨hvalid, hbytes, hpieces⟩ more⟩
  -- a stream that ends with its last message
  have htake : ((transmissions.map (·.request)).flatMap (frame text)).take
      ((transmissions.map (·.request)).flatMap (frame text)).length = _ := List.take_length
  have hall := run_receives hempty hreadable ⟨hvalid, hbytes.trans htake.symm, hpieces⟩ more
  rw [arrived_all (Nat.le_refl _), List.length_map, List.map_map] at hall
  exact hall

/-! ## A ping and its answer -/

/-- The texts of two messages. -/
def nullText : List UInt8 := [110, 117, 108, 108]

def trueText : List UInt8 := [116, 114, 117, 101]

def smallText : MessageText where
  parse := fun bytes =>
    if bytes = nullText then .value .null
    else if bytes = trueText then .value (.boolean true)
    else .parseError
  dump := fun json =>
    match json with
    | .boolean true => trueText
    | _ => nullText

def smallTransmissions : List Transmission :=
  [⟨.null, [1, 3], [4]⟩, ⟨.boolean true, [4], [2, 2]⟩]

/-- Two messages in pieces that end within the sizes and within the texts. -/
def smallSocket : Socket where
  isValid := true
  arriving := [[0, 0], [0, 4, 110], [117, 108, 108, 0, 0, 0], [4], [116, 114, 117, 101]]

theorem receives_sent_small :
    ∃ socket', receives smallText (2 + 1) smallSocket =
      .ok [some .null, some (.boolean true), none] socket' := by
  have hparse : ∀ t ∈ smallTransmissions,
      smallText.parse (smallText.dump t.request) = .value t.request := by
    refine List.forall_mem_cons.2 ⟨rfl, List.forall_mem_cons.2 ⟨rfl, ?_⟩⟩
    exact fun t ht => absurd ht List.not_mem_nil
  have hvalid : smallSocket.isValid = true := rfl
  exact (receives_sent rfl hparse (by decide) (by decide) hvalid (by decide)).1 (by decide) 1

end TcpClient

end QuasarDB.Core
