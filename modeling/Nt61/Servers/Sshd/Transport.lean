/-
Transport — what one transport writes, another one reads.

The receiver switches to the same keys after the same packet; the bytes may arrive in pieces of any
size. The receiver's buffer, together with what is still to arrive, is always a beginning of the
stream that is left. The primitives are arbitrary functions: the counter mode undoes itself for
every block cipher, and the tag is compared with itself.
-/
import Nt61.Servers.Sshd.Protocol

namespace Nt61.Sshd

open Lib Nt61.Crypto Prog DirectionState
open List hiding Vector

/-! ## Counter mode undoes itself -/

variable (crypto : Crypto)

lemma Ctr.processChunks_undo (n : Nat) (s : Ctr) (data : Bytes) (hl : data.length ≤ 16 * n) :
    (processChunks crypto n s data).1.length = data.length
      ∧ processChunks crypto n s (processChunks crypto n s data).1
        = (data, (processChunks crypto n s data).2) := by
  induction n generalizing s data with
  | zero =>
    obtain rfl : data = [] := eq_nil_of_length_eq_zero (by omega)
    exact ⟨rfl, rfl⟩
  | succ n ih =>
    obtain ⟨hrest, hun⟩ := ih { s with counter := incrementCounter s.counter } (data.drop 16)
      (by rw [length_drop]; omega)
    simp only [processChunks]
    generalize hks : (crypto.encryptBlock s.key s.counter).toList = ks
    have hks16 : ks.length = 16 := by rw [← hks, Vector.length_toList]
    generalize hfs : List.zipWith (· ^^^ ·) (data.take 16) ks = first
    have hfr : first.length = min data.length 16 := by
      rw [← hfs, length_zipWith, length_take]
      omega
    generalize hr : processChunks crypto n { s with counter := incrementCounter s.counter }
      (data.drop 16) = r at hrest hun
    rw [length_drop] at hrest
    refine ⟨by rw [length_append]; omega, ?_⟩
    -- the output splits at the same place as the input
    have hsp : (first ++ r.1).take 16 = first ∧ (first ++ r.1).drop 16 = r.1 := by
      by_cases hsh : data.length ≤ 16
      · have hnl : r.1 = [] := eq_nil_of_length_eq_zero (by omega)
        rw [hnl, append_nil]
        exact ⟨take_of_length_le (by omega), drop_eq_nil_of_le (by omega)⟩
      · have hfl : first.length = 16 := by omega
        exact ⟨take_left' hfl, drop_left' hfl⟩
    have hxr : List.zipWith (· ^^^ ·) first ks = data.take 16 := by
      rw [← hfs]
      exact zipWith_xor_undo (by rw [length_take]; omega)
    rw [hsp.1, hsp.2, hxr, hun]
    simp

lemma Ctr.process_undo (s : Ctr) (data : Bytes) : (process crypto s data).1.length = data.length
      ∧ process crypto s (process crypto s data).1 = (data, (process crypto s data).2) := by
  unfold process
  obtain ⟨hl, hun⟩ := processChunks_undo crypto ((data.length + 15) / 16) s data (by omega)
  refine ⟨hl, ?_⟩
  rw [hl]
  exact hun

/-! ## What arrives -/

def Io.bytesOf : List (Except TransportError Bytes) → Bytes
  | [] => []
  | .ok chunk :: rest => chunk ++ bytesOf rest
  | .error _ :: rest => bytesOf rest

/-- The bytes that arrive before the first pull that delivers nothing. -/
def Io.ready : List (Except TransportError Bytes) → Bytes
  | .ok (b :: bs) :: rest => b :: bs ++ ready rest
  | _ => []

def Io.behind : List (Except TransportError Bytes) → List (Except TransportError Bytes)
  | .ok (_ :: _) :: rest => behind rest
  | _ :: rest => rest
  | [] => []

/-- The socket may make the receiver wait but does not fail. -/
def Io.Calm (pulls : List (Except TransportError Bytes)) : Prop :=
  ∀ e, .error e ∈ pulls → e = .wouldBlock

lemma Io.ready_append_behind (pulls : List (Except TransportError Bytes)) :
    ready pulls ++ bytesOf (behind pulls) = bytesOf pulls := by
  fun_induction ready pulls with
  | case1 b bs rest ih =>
    rw [behind, append_assoc, ih]
    rfl
  | case2 pulls hot =>
    cases pulls with
    | nil => rfl
    | cons pull rest =>
      cases pull with
      | error e => rfl
      | ok chunk =>
        cases chunk with
        | nil => rfl
        | cons b bs => exact absurd rfl (hot b bs rest)

lemma Io.Calm.behind {pulls : List (Except TransportError Bytes)} (h : Calm pulls) :
    Calm (behind pulls) := by
  fun_induction Io.behind pulls with
  | case1 b bs rest ih => exact ih fun e he => h e (mem_cons_of_mem _ he)
  | case2 pull rest hot => exact fun e he => h e (mem_cons_of_mem _ he)
  | case3 => exact h

/-- What is left of the pulls after `k` reads: a read takes all that is ready. -/
def Io.left (pulls : List (Except TransportError Bytes)) : Nat → List (Except TransportError Bytes)
  | 0 => pulls
  | k + 1 => behind (left pulls k)

/-- The number of bytes that arrive up to the `k`-th read. -/
def Io.arrived (pulls : List (Except TransportError Bytes)) (k : Nat) : Nat :=
  (bytesOf pulls).length - (bytesOf (left pulls k)).length

/-- How many packets `k` reads return: each returns the next one if all of it has arrived. -/
def delivered (packets : List Bytes) (pulls : List (Except TransportError Bytes)) : Nat → Nat
  | 0 => 0
  | k + 1 =>
    let j := delivered packets pulls k
    if j < packets.length ∧ (packets.take (j + 1)).flatten.length ≤ Io.arrived pulls (k + 1)
      then j + 1 else j

lemma Io.length_behind (pulls : List (Except TransportError Bytes)) :
    (behind pulls).length ≤ pulls.length - 1 := by
  fun_induction behind pulls with
  | case1 b bs rest ih =>
    rw [length_cons]
    omega
  | case2 pull rest hot => rw [length_cons]; omega
  | case3 => exact Nat.le_refl _

lemma Io.left_eq_nil {pulls : List (Except TransportError Bytes)} {k : Nat}
    (hk : pulls.length ≤ k) : left pulls k = [] := by
  have hln : ∀ k, (left pulls k).length ≤ pulls.length - k := by
    intro k
    induction k with
    | zero => exact Nat.le_refl _
    | succ k ih =>
      have hb := length_behind (left pulls k)
      rw [left]
      omega
  have hle := hln k
  exact eq_nil_of_length_eq_zero (by omega)

/-- Once the script has come to its end, every read returns a packet until there is none. -/
lemma le_delivered {packets : List Bytes} {pulls : List (Except TransportError Bytes)}
    (hal : Io.bytesOf pulls = packets.flatten) (i : Nat) :
    min i packets.length ≤ delivered packets pulls (pulls.length + i) := by
  induction i with
  | zero => omega
  | succ i ih =>
    rw [← Nat.add_assoc, delivered]
    have har : Io.arrived pulls (pulls.length + i + 1) = packets.flatten.length := by
      rw [Io.arrived, Io.left_eq_nil (by omega), hal]
      rfl
    generalize delivered packets pulls (pulls.length + i) = j at ih ⊢
    have htk : (packets.take (j + 1)).flatten.length ≤ packets.flatten.length := by
      conv_rhs => rw [← take_append_drop (j + 1) packets, flatten_append, length_append]
      omega
    simp only [har, htk, and_true]
    split <;> omega

/-- The link when all that is ready has been taken. -/
def Link.drained (l : Link) : Link :=
  { l with
    transport := { l.transport with rxBuffer := l.transport.rxBuffer ++ Io.ready l.io.pulls }
    io := { l.io with pulls := Io.behind l.io.pulls } }

open Link

lemma Link.drain_eq (fuel : Nat) (l : Link) (hfu : l.io.pending < fuel)
    (hcl : Io.Calm l.io.pulls) : drain fuel l = (.ok (), l.drained) := by
  unfold drained
  induction fuel generalizing l with
  | zero => omega
  | succ fuel ih =>
    obtain ⟨t, ⟨pulls, pushes, sent⟩, drawn⟩ := l
    cases pulls with
    | nil => simp [drain, pull, Io.pull, Io.ready, Io.behind]
    | cons pull rest =>
      cases pull with
      | error e =>
        obtain rfl := hcl e mem_cons_self
        simp [drain, pull, Io.pull, Io.ready, Io.behind]
      | ok chunk =>
        cases chunk with
        | nil => simp [drain, pull, Io.pull, Io.ready, Io.behind]
        | cons b bs =>
          -- a round takes at most 4096 bytes; the rest of the chunk waits for the next one
          have hrest : Io.Calm rest := fun e he => hcl e (mem_cons_of_mem _ he)
          have hpl : drain (fuel + 1) ⟨t, ⟨.ok (b :: bs) :: rest, pushes, sent⟩, drawn⟩
              = drain fuel ⟨{ t with rxBuffer := t.rxBuffer ++ b :: bs.take 4095 },
                ⟨if bs.drop 4095 = [] then rest else .ok (bs.drop 4095) :: rest, pushes, sent⟩,
                drawn⟩ := by
            simp [drain, pull, Io.pull]
          rw [hpl]
          simp only [Io.pending, map_cons, sum_cons, length_cons] at hfu
          by_cases hlf : bs.drop 4095 = []
          · rw [if_pos hlf, ih _ (by simp only [Io.pending]; omega) hrest]
            have hta : bs.take 4095 = bs := take_of_length_le (drop_eq_nil_iff.mp hlf)
            simp [hta, Io.ready, Io.behind]
          rw [if_neg hlf]
          have hcl' : Io.Calm (.ok (bs.drop 4095) :: rest) := by
            intro e he
            rcases mem_cons.mp he with he | he
            · cases he
            · exact hrest e he
          have hpn : Io.pending ⟨.ok (bs.drop 4095) :: rest, pushes, sent⟩ < fuel := by
            simp only [Io.pending, map_cons, sum_cons, length_drop]
            omega
          rw [ih _ hpn hcl']
          obtain ⟨c, cs, hcs⟩ := exists_cons_of_ne_nil hlf
          have hsp : bs.take 4095 ++ c :: cs = bs := by
            rw [← hcs]
            exact take_append_drop 4095 bs
          simp only [hcs, Io.ready, Io.behind]
          rw [← append_assoc, append_assoc t.rxBuffer, cons_append, hsp]
          simp

/-! ## One packet on the wire -/

def packetLength (block len : Nat) : Nat :=
  (4 + len + 1 + PADDING_MIN + block - 1) / block * block - 4

def blockOf (dir : Option DirectionState) : Nat :=
  if dir.isSome then CIPHER_BLOCK_SIZE_AES else BLOCK_SIZE_UNENCRYPTED

variable (dir : Option DirectionState)

lemma packetLength_spec (len : Nat) :
    len + 5 ≤ packetLength (blockOf dir) len ∧ packetLength (blockOf dir) len ≤ len + 20
      ∧ (packetLength (blockOf dir) len + 4) % blockOf dir = 0 := by
  cases dir with
  | none =>
    show len + 5 ≤ (4 + len + 1 + 4 + 8 - 1) / 8 * 8 - 4
      ∧ (4 + len + 1 + 4 + 8 - 1) / 8 * 8 - 4 ≤ len + 20
      ∧ ((4 + len + 1 + 4 + 8 - 1) / 8 * 8 - 4 + 4) % 8 = 0
    omega
  | some state =>
    show len + 5 ≤ (4 + len + 1 + 4 + 16 - 1) / 16 * 16 - 4
      ∧ (4 + len + 1 + 4 + 16 - 1) / 16 * 16 - 4 ≤ len + 20
      ∧ ((4 + len + 1 + 4 + 16 - 1) / 16 * 16 - 4 + 4) % 16 = 0
    omega

lemma frameOf_eq (payload randomPadding : Bytes) :
    ∃ padding : Bytes, frameOf (blockOf dir) payload randomPadding
        = beBytes 4 (packetLength (blockOf dir) payload.length)
          ++ (UInt8.ofNat padding.length :: payload ++ padding)
      ∧ padding.length + payload.length + 1 = packetLength (blockOf dir) payload.length
      ∧ padding.length < 256 := by
  obtain ⟨hmn, hmx, _⟩ := packetLength_spec dir payload.length
  unfold frameOf
  dsimp only
  rw [show (4 + payload.length + 1 + PADDING_MIN + blockOf dir - 1) / blockOf dir * blockOf dir - 4
    = packetLength (blockOf dir) payload.length from rfl]
  generalize packetLength (blockOf dir) payload.length = n at hmn hmx ⊢
  generalize hrd : randomPadding.take (min (n - payload.length - 1) PADDING_RANDOM_BYTES) = random
  have hl : random.length ≤ n - payload.length - 1 := by
    rw [← hrd, length_take]
    omega
  generalize hpd : random ++ List.replicate
    (n - (UInt8.ofNat (n - payload.length - 1) :: payload ++ random).length) 0 = padding
  have htt : padding.length = n - payload.length - 1 := by
    rw [← hpd]
    simp
    omega
  refine ⟨padding, ?_, by omega, by omega⟩
  rw [htt, ← hpd]
  simp

def sealed (crypto : Crypto) (dir : Option DirectionState) (seq : UInt32) (frame : Bytes) : Bytes :=
  match dir with
  | none => frame
  | some state => frame.take 4 ++ (state.cipher.process crypto (frame.drop 4)).1
      ++ (crypto.hmacSha256 state.macKey (beBytes 4 seq.toNat ++ frame)).toList

def advance (crypto : Crypto) (dir : Option DirectionState) (frame : Bytes) :
    Option DirectionState :=
  dir.map fun state => { state with cipher := (state.cipher.process crypto (frame.drop 4)).2 }

lemma sendFrame_eq (frame : Bytes) (l : Link) (hpu : l.io.pushes = []) :
    sendFrame crypto frame l = (.ok (), { l with
      transport := { l.transport with send := advance crypto l.transport.send frame }
      io := { l.io with
        sent := sealed crypto l.transport.send l.transport.seqTx frame :: l.io.sent } }) := by
  obtain ⟨⟨_, _, seqTx, _, send⟩, ⟨_, pushes, sent⟩, _⟩ := l
  obtain rfl : pushes = [] := hpu
  cases send with
  | none => rfl
  | some state => rfl

def Link.nextPadding (crypto : Crypto) (l : Link) : Bytes :=
  (List.range PADDING_RANDOM_BYTES).map fun i => crypto.random (l.drawn + i)

def Link.nextFrame (crypto : Crypto) (l : Link) (payload : Bytes) : Bytes :=
  frameOf (blockOf l.transport.send) payload (l.nextPadding crypto)

def Link.written (crypto : Crypto) (l : Link) (payload : Bytes) : Link :=
  { l with
    transport := { l.transport with
      send := advance crypto l.transport.send (l.nextFrame crypto payload)
      seqTx := l.transport.seqTx + 1 }
    io := { l.io with
      sent := sealed crypto l.transport.send l.transport.seqTx (l.nextFrame crypto payload)
        :: l.io.sent }
    drawn := l.drawn + PADDING_RANDOM_BYTES }

lemma writePacket_eq (payload : Bytes) (l : Link) (hpu : l.io.pushes = []) :
    Link.writePacket crypto payload l = (.ok (), l.written crypto payload) := by
  have hse := sendFrame_eq crypto (l.nextFrame crypto payload)
    { l with drawn := l.drawn + PADDING_RANDOM_BYTES } hpu
  exact bind_of_ok hse

/-! ## Reading a packet -/

def macLength (dir : Option DirectionState) : Nat := if dir.isSome then MAC_LEN_HMAC_SHA2_256 else 0

lemma sealed_length (seq : UInt32) {n : Nat} {body : Bytes} (hbo : body.length = n) :
    (sealed crypto dir seq (beBytes 4 n ++ body)).length = 4 + n + macLength dir := by
  have hfo := beBytes_length 4 n
  cases dir with
  | none =>
    show (beBytes 4 n ++ body).length = 4 + n + 0
    rw [length_append]
    omega
  | some state =>
    simp only [sealed, length_append, length_take, (Ctr.process_undo _ _ _).1,
      length_drop, Vector.length_toList]
    show min 4 ((beBytes 4 n).length + body.length) + ((beBytes 4 n).length + body.length - 4) + 32
      = 4 + n + 32
    omega

lemma sealed_take_four (seq : UInt32) (n : Nat)
    (body : Bytes) : (sealed crypto dir seq (beBytes 4 n ++ body)).take 4 = beBytes 4 n := by
  have hta : (beBytes 4 n ++ body).take 4 = beBytes 4 n := take_left' (beBytes_length 4 n)
  cases dir with
  | none => exact hta
  | some state => exact take_left' (beBytes_length 4 n)

lemma openFrame_sealed (l : Link) {n : Nat} {body : Bytes} (hbo : body.length = n) :
    openFrame crypto n (sealed crypto l.transport.receive l.transport.seqRx (beBytes 4 n ++ body)) l
      = (.ok body, { l with transport := { l.transport with
          receive := advance crypto l.transport.receive (beBytes 4 n ++ body) } }) := by
  have hfo := beBytes_length 4 n
  obtain ⟨⟨_, seqRx, _, receive, _⟩, _, _⟩ := l
  cases receive with
  | none =>
    show (Except.ok (((beBytes 4 n ++ body).drop 4).take n), _) = _
    rw [drop_left' hfo, take_of_length_le (Nat.le_of_eq hbo)]
    rfl
  | some state =>
    obtain ⟨hl, hun⟩ := Ctr.process_undo crypto state.cipher body
    simp only [sealed, advance, take_left' hfo, drop_left' hfo, Option.map_some]
    generalize htg : crypto.hmacSha256 state.macKey
      (beBytes 4 seqRx.toNat ++ (beBytes 4 n ++ body)) = tag
    generalize hcp : state.cipher.process crypto body = c at hl hun ⊢
    generalize hpk : beBytes 4 n ++ c.1 ++ tag.toList = packet
    -- the code cuts the packet where the sender has put it together
    have hhd : packet.take 4 = beBytes 4 n := by
      rw [← hpk]
      exact take_left' hfo
    have hmd : (packet.drop 4).take n = c.1 := by
      rw [← hpk]
      exact take_left' (hl.trans hbo)
    have he : packet.drop (4 + n) = tag.toList := by
      rw [← hpk]
      apply drop_left'
      rw [length_append]
      omega
    unfold openFrame
    rw [bind_of_ok (rfl : read _ = (.ok _, _))]
    dsimp only
    rw [hmd, hun]
    rw [he, hhd, append_assoc, htg, if_neg (not_not_intro rfl)]
    rfl

lemma length_accepted {len : Nat} (hlimit : packetLength (blockOf dir) len ≤ PACKET_LENGTH_LIMIT) :
    beValue (beBytes 4 (packetLength (blockOf dir) len)) = packetLength (blockOf dir) len
      ∧ ¬ (¬ (PADDING_MIN + 1 ≤ packetLength (blockOf dir) len
            ∧ packetLength (blockOf dir) len ≤ PACKET_LENGTH_LIMIT)
          ∨ (packetLength (blockOf dir) len + 4)
            % (if dir.isSome then CIPHER_BLOCK_SIZE_AES else BLOCK_SIZE_UNENCRYPTED) ≠ 0) := by
  obtain ⟨_, _, hbs⟩ := packetLength_spec dir len
  constructor
  · rw [beValue_beBytes]
    apply Nat.mod_eq_of_lt
    have hbd : PACKET_LENGTH_LIMIT < 256 ^ 4 := by decide
    omega
  rintro (hrg | hml)
  · apply hrg
    refine ⟨?_, hlimit⟩
    show 4 + 1 ≤ _
    omega
  · exact hml hbs

section

variable {crypto : Crypto} {l l' : Link} (hdrain : drain (l.io.pending + 1) l = (.ok (), l'))
include hdrain

lemma readPacket_few
    (hfw : l'.transport.rxBuffer.length < 4) : readPacket crypto l = (.ok none, l') := by
  unfold readPacket
  rw [bind_of_ok (rfl : read l = (.ok l, l)), bind_of_ok hdrain,
    bind_of_ok (rfl : read l' = (.ok l', l'))]
  rw [if_pos hfw]
  rfl

variable {payload randomPadding frame : Bytes}
  (hlimit : packetLength (blockOf l'.transport.receive) payload.length ≤ PACKET_LENGTH_LIMIT)
  (hframe : frameOf (blockOf l'.transport.receive) payload randomPadding = frame)
include hlimit hframe

lemma readPacket_complete {rest : Bytes} (hbf : l'.transport.rxBuffer
      = sealed crypto l'.transport.receive l'.transport.seqRx frame ++ rest) :
    readPacket crypto l = (.ok (some payload), { l' with transport := { l'.transport with
      rxBuffer := rest
      seqRx := l'.transport.seqRx + 1
      receive := advance crypto l'.transport.receive frame } }) := by
  obtain ⟨padding, hps, _, hby⟩ := frameOf_eq l'.transport.receive payload randomPadding
  obtain ⟨hv, hac⟩ := length_accepted l'.transport.receive hlimit
  obtain rfl := hps.symm.trans hframe
  generalize hn : packetLength (blockOf l'.transport.receive) payload.length = n at *
  generalize hbo : UInt8.ofNat padding.length :: payload ++ padding = body at *
  have hbd : body.length = n := by
    rw [← hbo]
    simp
    omega
  have hl := sealed_length crypto l'.transport.receive l'.transport.seqRx hbd
  have hfo := sealed_take_four crypto l'.transport.receive l'.transport.seqRx n body
  have hop := openFrame_sealed crypto
    { l' with transport := { l'.transport with rxBuffer := rest } } hbd
  generalize hpk :
    sealed crypto l'.transport.receive l'.transport.seqRx (beBytes 4 n ++ body) = packet at *
  -- what each step of the code finds: length field, packet, padding length, payload
  have hhd : l'.transport.rxBuffer.take 4 = beBytes 4 n := by
    rw [hbf, take_append_of_le_length (by omega), hfo]
  have hst : setTransport (fun t => { t with rxBuffer := t.rxBuffer.drop packet.length }) l'
      = (.ok (), { l' with transport := { l'.transport with rxBuffer := rest } }) := by
    show (Except.ok (), { l' with transport := { l'.transport with
      rxBuffer := l'.transport.rxBuffer.drop packet.length } }) = _
    rw [hbf, drop_left]
  have hfs : (body.headD 0).toNat = padding.length := by
    rw [← hbo]
    exact UInt8.toNat_ofNat_of_lt hby
  have hpy : (body.take (body.length - padding.length)).drop 1 = payload := by
    have ha : body.length - padding.length = payload.length + 1 := by omega
    rw [ha, ← hbo, cons_append, take_succ_cons, take_left]
    rfl
  unfold readPacket
  rw [bind_of_ok (rfl : read l = (.ok l, l)), bind_of_ok hdrain,
    bind_of_ok (rfl : read l' = (.ok l', l'))]
  rw [if_neg (by rw [hbf, length_append]; omega), hhd, hv, if_neg hac,
    show (if l'.transport.receive.isSome = true then MAC_LEN_HMAC_SHA2_256 else 0)
      = macLength l'.transport.receive from rfl,
    ← hl, hbf, if_neg (by rw [length_append]; omega), bind_of_ok hst, take_left,
    bind_of_ok hop, hfs, if_neg (by omega), hpy]
  rfl

lemma readPacket_incomplete (hst : l'.transport.rxBuffer
      <+: sealed crypto l'.transport.receive l'.transport.seqRx frame)
    (hsh : l'.transport.rxBuffer.length
      < (sealed crypto l'.transport.receive l'.transport.seqRx frame).length) :
    readPacket crypto l = (.ok none, l') := by
  obtain ⟨padding, hps, _, _⟩ := frameOf_eq l'.transport.receive payload randomPadding
  obtain ⟨hv, hac⟩ := length_accepted l'.transport.receive hlimit
  obtain rfl := hps.symm.trans hframe
  generalize hn : packetLength (blockOf l'.transport.receive) payload.length = n at *
  have hbd : (UInt8.ofNat padding.length :: payload ++ padding).length = n := by
    simp
    omega
  rw [sealed_length crypto _ _ hbd] at hsh
  by_cases hfw : l'.transport.rxBuffer.length < 4
  · exact readPacket_few hdrain hfw
  unfold readPacket
  rw [bind_of_ok (rfl : read l = (.ok l, l)), bind_of_ok hdrain,
    bind_of_ok (rfl : read l' = (.ok l', l'))]
  have hhd : l'.transport.rxBuffer.take 4 = beBytes 4 n := by
    rw [← sealed_take_four crypto l'.transport.receive l'.transport.seqRx n
      (UInt8.ofNat padding.length :: payload ++ padding)]
    obtain ⟨_, hmo⟩ := hst
    rw [← hmo, take_append_of_le_length (by omega)]
  rw [if_neg hfw, hhd, hv, if_neg hac,
    show (if l'.transport.receive.isSome = true then MAC_LEN_HMAC_SHA2_256 else 0)
      = macLength l'.transport.receive from rfl, if_pos hsh]
  rfl

end

/-! ## The sender -/

def Link.writeAll (crypto : Crypto) : List Bytes → Prog Link TransportError Unit
  | [] => pure ()
  | payload :: payloads => do
    writePacket crypto payload
    writeAll crypto payloads

/-- Write some payloads, switch to keys, and write the others. -/
def Link.transmit (crypto : Crypto) (before : List Bytes) (receive send : DirectionState)
    (after : List Bytes) : Prog Link TransportError Unit := do
  writeAll crypto before
  setTransport fun t => t.activateKeys receive send
  writeAll crypto after

/-- The direction in force for packet `i` if keys are switched in front of packet `switch`. -/
def inForce (switch : Nat) (fresh : DirectionState) (i : Nat) (dir : Option DirectionState) :
    Option DirectionState :=
  if i = switch then some fresh else dir

/-- The packets for the payloads from number `i` on, from a direction and a sequence number on. -/
inductive Stream (crypto : Crypto) (switch : Nat) (fresh : DirectionState) :
    Nat → Option DirectionState → UInt32 → List Bytes → List Bytes → Prop where
  | nil (i : Nat) (dir : Option DirectionState) (seq : UInt32) :
      Stream crypto switch fresh i dir seq [] []
  | cons {i : Nat} {dir dir' : Option DirectionState} {seq : UInt32}
      {payload randomPadding frame : Bytes} {payloads packets : List Bytes}
      (hdir : inForce switch fresh i dir = dir')
      (hlimit : packetLength (blockOf dir') payload.length ≤ PACKET_LENGTH_LIMIT)
      (hframe : frameOf (blockOf dir') payload randomPadding = frame)
      (hrest : Stream crypto switch fresh (i + 1) (advance crypto dir' frame) (seq + 1) payloads
        packets) :
      Stream crypto switch fresh i dir seq (payload :: payloads)
        (sealed crypto dir' seq frame :: packets)

variable {crypto : Crypto} {switch : Nat} {fresh : DirectionState}

lemma Stream.length_eq {i : Nat} {dir : Option DirectionState} {seq : UInt32}
    {payloads packets : List Bytes} (h : Stream crypto switch fresh i dir seq payloads packets) :
    packets.length = payloads.length := by
  induction h with
  | nil => rfl
  | cons _ _ _ _ ih => simp [ih]

lemma Stream.of_switch {dir dir' : Option DirectionState} {seq : UInt32}
    {payloads packets : List Bytes}
    (h : Stream crypto switch fresh switch dir seq payloads packets) :
    Stream crypto switch fresh switch dir' seq payloads packets := by
  cases h with
  | nil => exact Stream.nil _ _ _
  | cons hdir hlimit hframe hrest =>
    refine Stream.cons ?_ hlimit hframe hrest
    rw [← hdir]
    simp [inForce]

lemma blockOf_advance (frame : Bytes) : blockOf (advance crypto dir frame) = blockOf dir := by
  cases dir with
  | none => rfl
  | some state => rfl

lemma writeAll_stream (payloads : List Bytes) (l : Link) (i : Nat) (hpu : l.io.pushes = [])
    (hlimit : ∀ payload ∈ payloads,
      packetLength (blockOf l.transport.send) payload.length ≤ PACKET_LENGTH_LIMIT)
    (hsw : ∀ k < payloads.length, i + k = switch → k = 0 ∧ l.transport.send = some fresh) :
    ∃ packets l', writeAll crypto payloads l = (.ok (), l')
      ∧ l'.io.sent = packets.reverse ++ l.io.sent ∧ l'.io.pushes = []
      ∧ blockOf l'.transport.send = blockOf l.transport.send
      ∧ ∀ payloads' packets', Stream crypto switch fresh (i + payloads.length) l'.transport.send
          l'.transport.seqTx payloads' packets' →
        Stream crypto switch fresh i l.transport.send l.transport.seqTx (payloads ++ payloads')
          (packets ++ packets') := by
  induction payloads generalizing l i with
  | nil => exact ⟨[], l, rfl, rfl, hpu, rfl, fun _ _ h => h⟩
  | cons payload payloads ih =>
    have hwr := writePacket_eq crypto payload l hpu
    have hbl : blockOf (l.written crypto payload).transport.send = blockOf l.transport.send :=
      blockOf_advance _ _
    obtain ⟨packets, l', hr, hse, hpu', hbl', hst⟩ :=
      ih (l.written crypto payload) (i + 1) hpu (by
          intro payload' hm
          rw [hbl]
          exact hlimit payload' (mem_cons_of_mem _ hm))
        (by
          intro k hk hik
          have hsu := hsw (k + 1) (by simpa using hk) (by omega)
          omega)
    refine ⟨sealed crypto l.transport.send l.transport.seqTx (l.nextFrame crypto payload)
      :: packets, l', ?_, ?_, hpu', hbl'.trans hbl, ?_⟩
    · rw [writeAll, bind_of_ok hwr]
      exact hr
    · rw [hse]
      simp [written]
    -- the keys in force are the sender's own, also if this is the first packet behind the switch
    intro payloads' packets' htl
    have hdir : inForce switch fresh i l.transport.send = l.transport.send := by
      unfold inForce
      by_cases hi : i = switch
      · rw [if_pos hi, (hsw 0 (by simp) (by omega)).2]
      · rw [if_neg hi]
    refine Stream.cons hdir (hlimit payload mem_cons_self) rfl ?_
    apply hst payloads' packets'
    rw [show i + 1 + payloads.length = i + (payload :: payloads).length by
      simp only [length_cons]; omega]
    exact htl

lemma transmit_stream (before after : List Bytes) (other : DirectionState) (l : Link)
    (hpu : l.io.pushes = []) (hsn : l.transport.send = none) (hbf : ∀ payload ∈ before,
      packetLength BLOCK_SIZE_UNENCRYPTED payload.length ≤ PACKET_LENGTH_LIMIT)
    (haf : ∀ payload ∈ after,
      packetLength CIPHER_BLOCK_SIZE_AES payload.length ≤ PACKET_LENGTH_LIMIT) :
    ∃ packets l', transmit crypto before other fresh after l = (.ok (), l')
      ∧ l'.io.sent = packets.reverse ++ l.io.sent
      ∧ Stream crypto before.length fresh 0 none l.transport.seqTx (before ++ after) packets := by
  obtain ⟨packets1, l1, hrun1, hsent1, hpush1, _, hstream1⟩ :=
    @writeAll_stream crypto before.length fresh before l 0 hpu
      (by rw [hsn]; exact hbf) (by intro k hk hik; omega)
  obtain ⟨packets2, l2, hrun2, hsent2, _, _, hstream2⟩ :=
    @writeAll_stream crypto before.length fresh after
      { l1 with transport := l1.transport.activateKeys other fresh } before.length hpush1
      haf (by intro k _ hik; exact ⟨by omega, rfl⟩)
  -- the stream behind the switch does not depend on the cipher in front of it
  refine ⟨packets1 ++ packets2, l2, ?_, ?_, ?_⟩
  · unfold transmit
    rw [bind_of_ok hrun1]
    exact hrun2
  · rw [hsent2, hsent1]
    simp
  rw [hsn] at hstream1
  apply hstream1
  rw [Nat.zero_add]
  have hem := hstream2 [] [] (Stream.nil _ _ _)
  rw [append_nil, append_nil] at hem
  exact hem.of_switch

/-! ## The receiver -/

structure Reader where
  link : Link
  got : List Bytes

/-- It starts with keys if the switch is in front of the first packet. -/
def Reader.start (switch : Nat) (receive send : DirectionState) (l : Link) : Reader :=
  ⟨if switch = 0 then { l with transport := l.transport.activateKeys receive send } else l, []⟩

/-- Note a payload; right after the packet in front of the switch, the keys change. -/
def Reader.accept (switch : Nat) (receive send : DirectionState) (r : Reader) (payload : Bytes)
    (l : Link) : Reader :=
  ⟨if r.got.length + 1 = switch then { l with transport := l.transport.activateKeys receive send }
    else l, r.got ++ [payload]⟩

def Reader.call (crypto : Crypto) (switch : Nat) (receive send : DirectionState) (r : Reader) :
    Except TransportError (Option Bytes) × Reader :=
  match readPacket crypto r.link with
  | (.ok (some payload), l) => (.ok (some payload), r.accept switch receive send payload l)
  | (result, l) => (result, { r with link := l })

def Reader.calls (crypto : Crypto) (switch : Nat) (receive send : DirectionState) :
    Nat → Reader → Reader
  | 0, r => r
  | k + 1, r => ((calls crypto switch receive send k r).call crypto switch receive send).2

/-- The receiver has got the first `j` payloads; its buffer and what is still to arrive continue the
packets that it has read. -/
structure Reading (crypto : Crypto) (switch : Nat) (fresh : DirectionState)
    (payloads packets : List Bytes) (script : Bytes) (j : Nat) (r : Reader) : Prop where
  le : j ≤ payloads.length
  got : r.got = payloads.take j
  stream : ∃ dir, r.link.transport.receive = inForce switch fresh j dir
    ∧ Stream crypto switch fresh j dir r.link.transport.seqRx (payloads.drop j) (packets.drop j)
  account : (packets.take j).flatten ++ (r.link.transport.rxBuffer ++ Io.bytesOf r.link.io.pulls)
    = script
  calm : Io.Calm r.link.io.pulls

open Reader

variable (switch fresh) in
lemma Reader.accept_fields (send : DirectionState) (r : Reader) (payload : Bytes) (l : Link) :
    (r.accept switch fresh send payload l).link.io.pulls = l.io.pulls
      ∧ (r.accept switch fresh send payload l).link.transport.rxBuffer = l.transport.rxBuffer
      ∧ (r.accept switch fresh send payload l).link.transport.seqRx = l.transport.seqRx
      ∧ (r.accept switch fresh send payload l).link.transport.receive
        = inForce switch fresh (r.got.length + 1) l.transport.receive := by
  unfold accept inForce
  by_cases hks : r.got.length + 1 = switch
  · rw [if_pos hks, if_pos hks]
    exact ⟨rfl, rfl, rfl, rfl⟩
  · rw [if_neg hks, if_neg hks]
    exact ⟨rfl, rfl, rfl, rfl⟩

lemma take_succ_flatten {packets rest : List Bytes} {packet : Bytes} {j : Nat}
    (hdr : packets.drop j = packet :: rest) :
    (packets.take (j + 1)).flatten = (packets.take j).flatten ++ packet := by
  have hfs : packets[j]? = some packet := by
    rw [← head?_drop, hdr]
    rfl
  rw [take_add_one, hfs, flatten_append, Option.toList_some, flatten_singleton]

section

variable {payloads packets : List Bytes} {script : Bytes} {j : Nat} {r : Reader}

variable (h : Reading crypto switch fresh payloads packets script j r)
include h

lemma Reading.length_got : r.got.length = j := by
  rw [h.got, length_take]
  exact Nat.min_eq_left h.le

lemma Reading.drained :
    Reading crypto switch fresh payloads packets script j { r with link := r.link.drained } := by
  refine ⟨h.le, h.got, h.stream, ?_, h.calm.behind⟩
  show (packets.take j).flatten ++ (r.link.transport.rxBuffer ++ Io.ready r.link.io.pulls
    ++ Io.bytesOf (Io.behind r.link.io.pulls)) = script
  rw [append_assoc r.link.transport.rxBuffer, Io.ready_append_behind]
  exact h.account

lemma Reading.starts (hsc : script <+: packets.flatten) :
    r.link.transport.rxBuffer ++ Io.bytesOf r.link.io.pulls <+: (packets.drop j).flatten := by
  obtain ⟨more, hmo⟩ := hsc
  refine ⟨more, ?_⟩
  have ha : (packets.take j).flatten ++ (packets.drop j).flatten = packets.flatten := by
    rw [← flatten_append, take_append_drop]
  rw [← h.account, ← ha, append_assoc] at hmo
  exact append_cancel_left hmo

lemma Reading.next (hmo : j < payloads.length) :
    ∃ (randomPadding frame : Bytes) (rest : List Bytes),
      frameOf (blockOf r.link.transport.receive) payloads[j] randomPadding = frame
      ∧ packetLength (blockOf r.link.transport.receive) payloads[j].length ≤ PACKET_LENGTH_LIMIT
      ∧ packets.drop j = sealed crypto r.link.transport.receive r.link.transport.seqRx frame :: rest
      ∧ Stream crypto switch fresh (j + 1) (advance crypto r.link.transport.receive frame)
        (r.link.transport.seqRx + 1) (payloads.drop (j + 1)) rest := by
  obtain ⟨_, hrc, hst⟩ := h.stream
  rw [drop_eq_getElem_cons hmo] at hst
  generalize hdr : packets.drop j = left at hst
  cases hst with
  | cons hdir hlimit hframe hrest =>
    rw [hdir] at hrc
    rw [hrc]
    exact ⟨_, _, _, hframe, hlimit, rfl, hrest⟩

lemma Reading.arrived_iff
    {packet : Bytes} {rest : List Bytes} (hdr : packets.drop j = packet :: rest) :
    (packets.take (j + 1)).flatten.length ≤ script.length - (Io.bytesOf r.link.io.pulls).length
      ↔ packet.length ≤ r.link.transport.rxBuffer.length := by
  have hln := congrArg List.length h.account
  rw [length_append, length_append] at hln
  rw [take_succ_flatten hdr, length_append]
  omega

lemma Reading.accept
    (hmo : j < payloads.length) (send : DirectionState) {frame rx : Bytes} {rest : List Bytes}
    (hdr : packets.drop j
      = sealed crypto r.link.transport.receive r.link.transport.seqRx frame :: rest)
    (hrest : Stream crypto switch fresh (j + 1) (advance crypto r.link.transport.receive frame)
      (r.link.transport.seqRx + 1) (payloads.drop (j + 1)) rest) (hrx : r.link.transport.rxBuffer
      = sealed crypto r.link.transport.receive r.link.transport.seqRx frame ++ rx) :
    Reading crypto switch fresh payloads packets script (j + 1)
      (r.accept switch fresh send payloads[j] { r.link with transport := { r.link.transport with
        rxBuffer := rx
        seqRx := r.link.transport.seqRx + 1
        receive := advance crypto r.link.transport.receive frame } }) := by
  generalize hl : ({ r.link with transport := _ } : Link) = l
  obtain ⟨hpl, hbf, hsq, hrc⟩ := accept_fields switch fresh send r payloads[j] l
  rw [h.length_got] at hrc
  refine ⟨hmo, ?_, ⟨_, hrc, ?_⟩, ?_, ?_⟩
  · show r.got ++ [payloads[j]] = payloads.take (j + 1)
    rw [h.got, take_succ_eq_append_getElem hmo]
  · have hdr' : packets.drop (j + 1) = rest := by
      rw [← drop_drop, hdr]
      rfl
    rw [hsq, hdr', ← hl]
    exact hrest
  · rw [hbf, hpl, take_succ_flatten hdr, ← hl, ← h.account, hrx]
    simp
  · rw [hpl, ← hl]
    exact h.calm

lemma Reading.call (send : DirectionState) (hsc : script <+: packets.flatten) :
    (r.call crypto switch fresh send).1 = .ok (if (packets.take (j + 1)).flatten.length
            ≤ script.length - (Io.bytesOf (Io.behind r.link.io.pulls)).length
          then payloads[j]? else none)
      ∧ (r.call crypto switch fresh send).2.link.io.pulls = Io.behind r.link.io.pulls
      ∧ Reading crypto switch fresh payloads packets script
        (if j < payloads.length ∧ (packets.take (j + 1)).flatten.length
            ≤ script.length - (Io.bytesOf (Io.behind r.link.io.pulls)).length then j + 1 else j)
        (r.call crypto switch fresh send).2 := by
  have hdrain := drain_eq (r.link.io.pending + 1) r.link (Nat.lt_succ_self _) h.calm
  have hdd := h.drained
  have hst := hdd.starts hsc
  by_cases hmo : j < payloads.length
  · -- there is a next packet, and it is in the buffer or only a part of it is
    obtain ⟨_, frame, _, hframe, hlimit, hdr, hrest⟩ := hdd.next hmo
    have harrived_iff : (packets.take (j + 1)).flatten.length
        ≤ script.length - (Io.bytesOf (Io.behind r.link.io.pulls)).length ↔ _ :=
      hdd.arrived_iff hdr
    rw [hdr] at hst
    have hbf := (prefix_append _ _).trans hst
    by_cases har : (sealed crypto r.link.drained.transport.receive
        r.link.drained.transport.seqRx frame).length ≤ r.link.drained.transport.rxBuffer.length
    · obtain ⟨_, hrx⟩ := prefix_of_prefix_length_le (prefix_append _ _) hbf har
      have hrd := readPacket_complete hdrain hlimit hframe hrx.symm
      have hft := harrived_iff.mpr har
      unfold Reader.call
      rw [hrd, if_pos hft, if_pos ⟨hmo, hft⟩, getElem?_eq_getElem hmo]
      exact ⟨rfl, (accept_fields switch fresh send r payloads[j] _).1,
        hdd.accept hmo send hdr hrest hrx.symm⟩
    have hpt := prefix_of_prefix_length_le hbf (prefix_append _ _) (Nat.le_of_not_le har)
    have hrd := readPacket_incomplete hdrain hlimit hframe hpt (Nat.lt_of_not_le har)
    have hft := mt harrived_iff.mp har
    unfold Reader.call
    rw [hrd, if_neg hft, if_neg fun hc => hft hc.2]
    exact ⟨rfl, rfl, hdd⟩
  -- everything has been read, so nothing is in the buffer
  have hn : payloads[j]? = none := getElem?_eq_none (by omega)
  have hrd : readPacket crypto r.link = (.ok none, r.link.drained) := by
    apply readPacket_few hdrain
    obtain ⟨_, _, hsr⟩ := h.stream
    have hdn : packets.drop j = [] := by
      apply eq_nil_of_length_eq_zero
      rw [hsr.length_eq, length_drop]
      omega
    rw [hdn] at hst
    have hle := hst.length_le
    simp only [length_append, flatten_nil, length_nil] at hle
    omega
  unfold Reader.call
  rw [hrd, hn, ite_self, if_neg fun hc => hmo hc.1]
  exact ⟨rfl, rfl, hdd⟩

end

/-- The receiver's payloads and its place in the script are those of the script alone. -/
lemma Reading.calls {payloads packets : List Bytes} {pulls : List (Except TransportError Bytes)}
    {r : Reader} (h : Reading crypto switch fresh payloads packets (Io.bytesOf pulls) 0 r)
    (hpl : r.link.io.pulls = pulls) (hln : packets.length = payloads.length)
    (send : DirectionState) (hsc : Io.bytesOf pulls <+: packets.flatten) (k : Nat) :
    (r.calls crypto switch fresh send k).link.io.pulls = Io.left pulls k
      ∧ Reading crypto switch fresh payloads packets (Io.bytesOf pulls) (delivered packets pulls k)
        (r.calls crypto switch fresh send k) := by
  induction k with
  | zero => exact ⟨hpl, h⟩
  | succ k ih =>
    obtain ⟨hlf, hk⟩ := ih
    obtain ⟨_, hp, hr⟩ := hk.call send hsc
    rw [hlf] at hp hr
    rw [← hln] at hr
    exact ⟨hp, hr⟩

/-- **Round trip.** A sender writes payloads, switches to keys, and writes more payloads. Nothing
fails. A receiver with the same sequence number and an empty buffer that switches to the same keys
after as many packets gets the payloads in order: each call returns the next payload if its packet
is among the bytes that the script has delivered by then, and otherwise waits. The bytes may arrive
in pieces of any size. When all of them arrive, all payloads are returned. -/
theorem transport_round_trip (crypto : Crypto) (key macKey : Vector UInt8 32)
    (otherIn otherOut : DirectionState) (before after : List Bytes) (sender receiver : Link)
    (hpush : sender.io.pushes = []) (hsent : sender.io.sent = [])
    (hsend : sender.transport.send = none) (hreceive : receiver.transport.receive = none)
    (hbuffer : receiver.transport.rxBuffer = [])
    (hseq : receiver.transport.seqRx = sender.transport.seqTx) (hbefore : ∀ payload ∈ before,
      packetLength BLOCK_SIZE_UNENCRYPTED payload.length ≤ PACKET_LENGTH_LIMIT)
    (hafter : ∀ payload ∈ after,
      packetLength CIPHER_BLOCK_SIZE_AES payload.length ≤ PACKET_LENGTH_LIMIT) :
    ∃ sender', transmit crypto before otherIn (new key macKey) after sender = (.ok (), sender')
      ∧ sender'.io.sent.length = (before ++ after).length
      ∧ ∀ packets, packets = sender'.io.sent.reverse →
        ∀ pulls, Io.Calm pulls → Io.bytesOf pulls <+: packets.flatten →
        ∀ k, ∃ r : Reader, r = calls crypto before.length (new key macKey) otherOut k
            (start before.length (new key macKey) otherOut
              { receiver with io := { receiver.io with pulls := pulls } })
          ∧ r.got = (before ++ after).take (delivered packets pulls k)
          ∧ (r.call crypto before.length (new key macKey) otherOut).1 = .ok
            (if (packets.take (delivered packets pulls k + 1)).flatten.length
                ≤ Io.arrived pulls (k + 1)
              then (before ++ after)[delivered packets pulls k]? else none)
          ∧ (Io.bytesOf pulls = packets.flatten → pulls.length + (before ++ after).length ≤ k →
            r.got = before ++ after) := by
  generalize hfr : new key macKey = fresh
  obtain ⟨packets, sender', hr, hse', hsr⟩ := @transmit_stream crypto fresh before after
    otherIn sender hpush hsend hbefore hafter
  rw [hsent, append_nil] at hse'
  refine ⟨sender', hr, ?_, ?_⟩
  · rw [hse', length_reverse, hsr.length_eq]
  intro sentPackets hsp pulls hcl hst k
  obtain rfl : sentPackets = packets := by rw [hsp, hse', reverse_reverse]
  have hln := hsr.length_eq
  have hs0 : Reading crypto before.length fresh (before ++ after) sentPackets (Io.bytesOf pulls) 0
      (start before.length fresh otherOut
        { receiver with io := { receiver.io with pulls := pulls } }) := by
    unfold start
    rw [← hseq] at hsr
    by_cases hks : before.length = 0
    · rw [if_pos hks]
      exact ⟨Nat.zero_le _, rfl, ⟨none, by simp [inForce, hks, Transport.activateKeys], hsr⟩,
        by simp [hbuffer, Transport.activateKeys], hcl⟩
    rw [if_neg hks]
    refine ⟨Nat.zero_le _, rfl, ⟨none, ?_, hsr⟩, by simp [hbuffer], hcl⟩
    unfold inForce
    rw [if_neg (Ne.symm hks)]
    exact hreceive
  have hp0 : (start before.length fresh otherOut
      { receiver with io := { receiver.io with pulls := pulls } }).link.io.pulls = pulls := by
    unfold start
    split <;> rfl
  obtain ⟨hlf, hrd⟩ := hs0.calls hp0 hln otherOut hst k
  refine ⟨_, rfl, hrd.got, ?_, ?_⟩
  · rw [(hrd.call otherOut hst).1, hlf]
    rfl
  · intro hal hk
    obtain ⟨i, rfl⟩ := Nat.exists_eq_add_of_le hk
    have hmn := le_delivered hal ((before ++ after).length + i)
    rw [← Nat.add_assoc] at hmn
    rw [hrd.got]
    exact take_of_length_le (by omega)

def zeroCrypto : Crypto where
  sha256 := fun _ => Vector.replicate 32 0
  sha1 := fun _ => Vector.replicate 20 0
  hmacSha256 := fun _ _ => Vector.replicate 32 0
  encryptBlock := fun _ _ => Vector.replicate 16 0
  x25519 := fun _ _ => Vector.replicate 32 0
  signPkcs1v15 := fun _ _ => none
  verifyPkcs1v15 := fun _ _ _ => false
  random := fun _ => 0

def keyOf (b : UInt8) : DirectionState := new (Vector.replicate 32 b) (Vector.replicate 32 b)

/-- The bytes come in two pieces, and the receiver has to wait. -/
def twoPieces (bytes : Bytes) : List (Except TransportError Bytes) :=
  [.ok (bytes.take 7), .error .wouldBlock, .ok (bytes.drop 7)]

lemma twoPieces_calm (bytes : Bytes) : Io.Calm (twoPieces bytes) := by
  intro e he
  simpa [twoPieces] using he

lemma bytesOf_twoPieces (bytes : Bytes) : Io.bytesOf (twoPieces bytes) = bytes := by
  simp [twoPieces, Io.bytesOf]

theorem transport_round_trip_pieces : ∃ sender', transmit zeroCrypto [[1]] (keyOf 1) (keyOf 0)
        [[2, 3], []] ⟨Transport.new, ⟨[], [], []⟩, 0⟩ = (.ok (), sender')
      ∧ (calls zeroCrypto 1 (keyOf 0) (keyOf 1) 6 ⟨⟨Transport.new,
          ⟨twoPieces sender'.io.sent.reverse.flatten, [], []⟩, 0⟩, []⟩).got
        = [[1], [2, 3], []] := by
  obtain ⟨sender', hrun, _, hread⟩ := transport_round_trip zeroCrypto (Vector.replicate 32 0)
    (Vector.replicate 32 0) (keyOf 1) (keyOf 1) [[1]] [[2, 3], []]
    ⟨Transport.new, ⟨[], [], []⟩, 0⟩ ⟨Transport.new, ⟨[], [], []⟩, 0⟩ rfl rfl rfl rfl rfl rfl
    (by decide) (by decide)
  refine ⟨sender', hrun, ?_⟩
  obtain ⟨r, hr, _, _, hall⟩ := hread _ rfl (twoPieces sender'.io.sent.reverse.flatten)
    (twoPieces_calm _) (by rw [bytesOf_twoPieces]) 6
  rw [hr] at hall
  exact hall (bytesOf_twoPieces _) (Nat.le_refl 6)

end Nt61.Sshd
