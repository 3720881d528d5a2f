import TChat.Client.Authorization
import TChat.Server.FirstHandshake
import TChat.Server.Parsing
/-!
# What is typed and what the server reads

The client joins name and password with a delimiter that both may contain, and the server
cuts at the first one: a delimiter in the name moves the rest of it into the password.
-/

namespace TChat

open TChat.Common TChat.Server

/-- `read_username(36)` can return the name. -/
def TypedUsername (username : Bytes) : Prop :=
  ∃ typed, username = Client.readUsername 36 typed

/-- `read_password(36)` can return the password. -/
def TypedPassword (password : Bytes) : Prop :=
  ∃ keys, Client.readPassword 36 keys [] = some password

/-- The server reads the two strings out of the client's packet. -/
def Recovers (type : PacketType) (username password : Bytes) : Prop :=
  ∃ request, Expresses type username password request ∧
    processHandshakePacket (createPacketStream type (Client.credentials username password)) =
      (⟨.validAuthPacket, request⟩, [])

/-! ## What can be typed -/

section

variable {username password username' password' : Bytes} {type : PacketType}

theorem TypedUsername.length_le (h : TypedUsername username) :
    username.length ≤ Client.maxCredentialLength := by
  obtain ⟨typed, rfl⟩ := h
  calc
    (Client.readUsername 36 typed).length ≤ (typed.take (36 - 1)).length :=
      (List.takeWhile_sublist _).length_le
    _ ≤ Client.maxCredentialLength := List.length_take_le _ _

theorem length_readPassword {maxSize : Nat} {keys : List Int} {typed : Bytes}
    (hlength : typed.length ≤ maxSize - 1)
    (h : Client.readPassword maxSize keys typed = some password) :
    password.length ≤ maxSize - 1 := by
  induction keys generalizing typed with
  | nil =>
      unfold Client.readPassword at h
      split_ifs at h
      rwa [← Option.some.inj h]
  | cons ch keys ih =>
      unfold Client.readPassword at h
      split_ifs at h with hroom henter herase hprintable
      · rwa [← Option.some.inj h]
      · apply ih _ h
        rw [List.length_dropLast]
        omega
      · apply ih _ h
        rw [List.length_append, List.length_singleton]
        omega
      · exact ih hlength h
      · rwa [← Option.some.inj h]

theorem TypedPassword.length_le (h : TypedPassword password) :
    password.length ≤ Client.maxCredentialLength := by
  obtain ⟨keys, hread⟩ := h
  exact length_readPassword (Nat.zero_le _) hread

/-! ## Cutting at the delimiter -/

theorem credentials_eq (username password : Bytes) :
    Client.credentials username password = username ++ bar :: password := by
  simp [Client.credentials, literal, bar]

theorem bar_mem_credentials (username password : Bytes) :
    bar ∈ Client.credentials username password := by
  rw [credentials_eq]
  exact List.mem_append_right _ List.mem_cons_self

theorem takeWhile_credentials (hbar : bar ∉ username) :
    (Client.credentials username password).takeWhile (· ≠ bar) = username := by
  have hother : ∀ byte ∈ username, decide (byte ≠ bar) = true := by
    intro byte hbyte
    simpa using ne_of_mem_of_not_mem hbyte hbar
  rw [credentials_eq, List.takeWhile_append_of_pos hother, List.takeWhile_cons_of_neg (by simp),
    List.append_nil]

theorem dropWhile_credentials (hbar : bar ∉ username) :
    (Client.credentials username password).dropWhile (· ≠ bar) = bar :: password := by
  have hother : ∀ byte ∈ username, decide (byte ≠ bar) = true := by
    intro byte hbyte
    simpa using ne_of_mem_of_not_mem hbyte hbar
  rw [credentials_eq, List.dropWhile_append_of_pos hother, List.dropWhile_cons_of_neg (by simp)]

theorem handshake_credentials (hname : TypedUsername username) (hsecret : TypedPassword password)
    (type : PacketType) :
    processHandshakePacket (createPacketStream type (Client.credentials username password)) =
      (handshakeRequest (some type)
        ((Client.credentials username password).takeWhile (· ≠ bar))
        (((Client.credentials username password).dropWhile (· ≠ bar)).drop 1), []) := by
  have hlength : (Client.credentials username password).length ≤ 71 := by
    have husername := hname.length_le
    have hpassword := hsecret.length_le
    unfold Client.maxCredentialLength at husername hpassword
    rw [credentials_eq, List.length_append, List.length_cons]
    omega
  have hpacket : IsPacket type (Client.credentials username password)
      (createPacketStream type (Client.credentials username password)) :=
    isPacket_createPacketStream type (by omega)
  have hfits : (createPacketStream type (Client.credentials username password)).length ≤
      maxHandshakePayload := by
    rw [length_createPacketStream]
    unfold headerSize maxHandshakePayload
    omega
  have hparse := IsPacket.handshake_complete hpacket hfits (bar_mem_credentials _ _) []
  rwa [List.append_nil] at hparse

theorem recovers_iff (hname : TypedUsername username) (hsecret : TypedPassword password)
    (htype : type = .login ∨ type = .register) :
    Recovers type username password ↔ bar ∉ username := by
  have hparse := handshake_credentials hname hsecret type
  constructor
  · intro h
    obtain ⟨request, hexpresses, hread⟩ := h
    rw [hparse, Prod.mk.injEq] at hread
    have hbefore := (cut_at_bar (bar_mem_credentials username password)).2
    have hsame : username = (Client.credentials username password).takeWhile (· ≠ bar) := by
      rcases htype with rfl | rfl <;> cases hexpresses <;>
        simp only [handshakeRequest, HandshakeResult.mk.injEq, HandshakeRequest.mk.injEq] at hread
      · exact hread.1.2.2.1.symm
      · exact hread.1.2.2.1.symm
    rwa [hsame]
  · intro hbar
    rw [takeWhile_credentials hbar, dropWhile_credentials hbar, List.drop_one,
      List.tail_cons] at hparse
    rcases htype with rfl | rfl
    · exact ⟨_, .login, hparse⟩
    · exact ⟨_, .register, hparse⟩

/-- Names without a delimiter, and what comes after them, can be told from the packet. -/
theorem credentials_of_packet (hname : TypedUsername username)
    (hsecret : TypedPassword password) (hname' : TypedUsername username')
    (hsecret' : TypedPassword password') (hbar : bar ∉ username) (hbar' : bar ∉ username')
    (htype : type = .login ∨ type = .register)
    (hsame : createPacketStream type (Client.credentials username password) =
      createPacketStream type (Client.credentials username' password')) :
    username = username' ∧ password = password' := by
  have hread := handshake_credentials hname hsecret type
  rw [hsame, handshake_credentials hname' hsecret' type, takeWhile_credentials hbar,
    takeWhile_credentials hbar', dropWhile_credentials hbar, dropWhile_credentials hbar',
    List.drop_one, List.tail_cons, List.drop_one, List.tail_cons] at hread
  rcases htype with rfl | rfl <;>
    simp only [handshakeRequest, Prod.mk.injEq, HandshakeResult.mk.injEq,
      HandshakeRequest.mk.injEq, true_and, and_true] at hread <;>
    exact ⟨hread.1.symm, hread.2.symm⟩

end

/-- For every name and password that can be typed, the server reads them out of the Login
and the Register packet if and only if the name contains no delimiter, and two different
pairs whose names contain none have different packets. -/
theorem credentials_recovered {username password : Bytes} (hname : TypedUsername username)
    (hsecret : TypedPassword password) {type : PacketType}
    (htype : type = .login ∨ type = .register) :
    (Recovers type username password ↔ bar ∉ username) ∧
      (bar ∉ username → ∀ username' password', TypedUsername username' →
        TypedPassword password' → bar ∉ username' →
          createPacketStream type (Client.credentials username password) =
            createPacketStream type (Client.credentials username' password') →
          username = username' ∧ password = password') := by
  refine ⟨recovers_iff hname hsecret htype, ?_⟩
  intro hbar username' password' hname' hsecret' hbar' hsame
  exact credentials_of_packet hname hsecret hname' hsecret' hbar hbar' htype hsame

/-- The name "ann" with the password "b|c". -/
theorem credentials_recovered_ann : Recovers .login (literal "ann") (literal "b|c") :=
  (credentials_recovered ⟨literal "ann", by decide⟩ ⟨[98, 124, 99, 10], by decide⟩
    (.inl rfl)).1.mpr (by decide)

/-- The name "a|b" with the password "c" makes the packet of "a" with "b|c". -/
theorem delimiter_in_username :
    (¬∀ username password, TypedUsername username → TypedPassword password →
      Recovers .login username password) ∧
    ¬∀ username password username' password', TypedUsername username → TypedPassword password →
      TypedUsername username' → TypedPassword password' →
        createPacketStream .login (Client.credentials username password) =
          createPacketStream .login (Client.credentials username' password') →
        username = username' ∧ password = password' := by
  have hname : TypedUsername (literal "a|b") := ⟨literal "a|b", by decide⟩
  have hsecret : TypedPassword (literal "c") := ⟨[99, 10], by decide⟩
  have hname' : TypedUsername (literal "a") := ⟨literal "a", by decide⟩
  have hsecret' : TypedPassword (literal "b|c") := ⟨[98, 124, 99, 10], by decide⟩
  constructor
  · intro h
    have hbar := (recovers_iff hname hsecret (.inl rfl)).mp (h _ _ hname hsecret)
    exact absurd hbar (by decide)
  · intro h
    obtain ⟨hsame, -⟩ := h _ _ _ _ hname hsecret hname' hsecret' (by decide)
    exact absurd hsame (by decide)

end TChat
