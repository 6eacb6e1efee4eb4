import PrismAgent.Domain.Errors
import PrismAgent.JsonText.Values

/-!
# What an invocation carries

`_decode_payload`, `_queue_message_content` and `_single_message` of
`interfaces/oci_function_entry.py`. A trigger delivers a message bare, in a list or under
`messages`, and its content as a text or as an object; a batch of any size but one is rejected.
The texts of the errors of the standard library are left out.
-/

namespace PrismAgent

open JsonText

/-- The data that a function is invoked with. -/
inductive InvocationData
  | bytes (b : ByteArray)
  | text (s : String)
  | dict (fields : Fields)

/-- The data is a text. -/
def InvocationData.IsText : InvocationData → Prop
  | .dict _ => False
  | _ => True

/-- `type(value).__name__`. -/
def Json.typeName : Json → String
  | .null => "NoneType"
  | .bool _ => "bool"
  | .int _ => "int"
  | .float _ => "float"
  | .str _ => "str"
  | .arr _ => "list"
  | .obj _ => "dict"

namespace OciFunctionEntry

variable (canon : String → String)

def jsonLoads (text : String) : Except Exc Json :=
  match loads canon text with
  | some v => .ok v
  | none => .error (.external "JSONDecodeError" "")

def decodePayload : InvocationData → Except Exc Json
  | .bytes b =>
      match String.fromUTF8? b with
      | some text => jsonLoads canon text
      | none => .error (.external "UnicodeDecodeError" "")
  | .text text => jsonLoads canon text
  | .dict fields => .ok (.obj fields)

def singleMessage : List Json → Except Exc Json
  | [message] => .ok message
  | messages => .error (.valueError ("OCI trigger delivered " ++ toString messages.length ++
      " messages; this function processes exactly one event per invocation. Configure the " ++
      "connector/queue batch size to 1."))

/-- The keys under which a message may hold its content. -/
def CONTENT_KEYS : List String := ["content", "body", "message"]

/-- The content of a message, or the message itself where it holds none. -/
def messageContent (fields : Fields) : List String → Except Exc Fields
  | [] => .ok fields
  | key :: keys =>
      match fields.lookup key with
      | some (.str text) =>
          match jsonLoads canon text with
          | .error x => .error x
          | .ok (.obj content) => .ok content
          | .ok _ => .error (.valueError ("Queue message " ++ key ++
              " must decode to a JSON object."))
      | some (.obj content) => .ok content
      | _ => messageContent fields keys

theorem singleMessage_eq_ok {messages : List Json} {message : Json}
    (h : singleMessage messages = .ok message) : messages = [message] := by
  unfold singleMessage at h
  split at h
  next => rw [Except.ok.inj h]
  next => cases h

theorem sizeOf_singleMessage {messages : List Json} {message : Json}
    (h : singleMessage messages = .ok message) : sizeOf message < sizeOf messages := by
  rw [singleMessage_eq_ok h]
  decreasing_tactic

theorem sizeOf_lookup {fields : Fields} {key : String} {v : Json}
    (h : fields.lookup key = some v) : sizeOf v < sizeOf fields := by
  obtain ⟨before, after, rfl, -⟩ := List.lookup_eq_some_iff.1 h
  have hmem : (key, v) ∈ before ++ (key, v) :: after := by simp
  have hentry := List.sizeOf_lt_of_mem hmem
  simp only [Prod.mk.sizeOf_spec] at hentry
  omega

/-- The messages that an object wraps. -/
def wrapped (fields : Fields) : Option (List Json) :=
  match fields.lookup "messages" with
  | some (.arr messages) => some messages
  | _ => none

theorem lookup_of_wrapped {fields : Fields} {messages : List Json}
    (h : wrapped fields = some messages) : fields.lookup "messages" = some (.arr messages) := by
  unfold wrapped at h
  split at h
  next found hfound => rw [hfound, Option.some.inj h]
  next => cases h

def queueMessageContent : Json → Except Exc Fields
  | .arr messages =>
      match _h : singleMessage messages with
      | .ok message => queueMessageContent message
      | .error x => .error x
  | .obj fields =>
      match _hwrapped : wrapped fields with
      | some messages =>
          match _h : singleMessage messages with
          | .ok message => queueMessageContent message
          | .error x => .error x
      | none => messageContent canon fields CONTENT_KEYS
  | payload => .error (.valueError ("Unexpected queue payload type: " ++ payload.typeName))
termination_by payload => sizeOf payload
decreasing_by
  · have hmessage := sizeOf_singleMessage ‹_›
    simp only [Json.arr.sizeOf_spec]
    omega
  · have hmessage := sizeOf_singleMessage ‹_›
    have hlookup := sizeOf_lookup (lookup_of_wrapped ‹_›)
    simp only [Json.arr.sizeOf_spec, Json.obj.sizeOf_spec] at *
    omega

/-- The content of the one message that an invocation carries. -/
def content (data : InvocationData) : Except Exc Fields :=
  (decodePayload canon data).bind (queueMessageContent canon)

section Carries

/-- A value that is not taken for the content of a message. -/
def NoContent (fields : Fields) (key : String) : Prop :=
  ∀ v, fields.lookup key = some v → v.typeName ≠ "str" ∧ v.typeName ≠ "dict"

/-- The message carries the content: bare, under a content key as a text or as an object, and
within any number of lists of one message, bare or under `messages`. -/
inductive Carries (content : Fields) : Json → Prop
  | bare (hwrapped : wrapped content = none) (h : ∀ key ∈ CONTENT_KEYS, NoContent content key) :
      Carries content (.obj content)
  | text {fields : Fields} {key : String} {before after : List String} {text : String}
      (hwrapped : wrapped fields = none) (hkeys : CONTENT_KEYS = before ++ key :: after)
      (h : ∀ k ∈ before, NoContent fields k) (hkey : fields.lookup key = some (.str text))
      (htext : loads canon text = some (.obj content)) : Carries content (.obj fields)
  | object {fields : Fields} {key : String} {before after : List String}
      (hwrapped : wrapped fields = none) (hkeys : CONTENT_KEYS = before ++ key :: after)
      (h : ∀ k ∈ before, NoContent fields k) (hkey : fields.lookup key = some (.obj content)) :
      Carries content (.obj fields)
  | list {message : Json} (h : Carries content message) : Carries content (.arr [message])
  | messages {fields : Fields} {message : Json} (hwrapped : wrapped fields = some [message])
      (h : Carries content message) : Carries content (.obj fields)

variable {canon} {content fields : Fields}

theorem messageContent_cons {key : String} (h : NoContent fields key) (keys : List String) :
    messageContent canon fields (key :: keys) = messageContent canon fields keys := by
  rw [messageContent]
  cases hv : fields.lookup key with
  | none => rfl
  | some v =>
      obtain ⟨hstr, hdict⟩ := h v hv
      cases v with
      | str text => exact absurd rfl hstr
      | obj entries => exact absurd rfl hdict
      | null | bool | int | float | arr => rfl

theorem messageContent_append {before : List String} (h : ∀ k ∈ before, NoContent fields k)
    (keys : List String) :
    messageContent canon fields (before ++ keys) = messageContent canon fields keys := by
  induction before with
  | nil => rfl
  | cons key before ih =>
      rw [List.cons_append, messageContent_cons (h key List.mem_cons_self)]
      exact ih fun k hk => h k (List.mem_cons_of_mem _ hk)

theorem queueMessageContent_list (message : Json) :
    queueMessageContent canon (.arr [message]) = queueMessageContent canon message := by
  rw [queueMessageContent]
  rfl

theorem queueMessageContent_wrapped {message : Json} (h : wrapped fields = some [message]) :
    queueMessageContent canon (.obj fields) = queueMessageContent canon message := by
  rw [queueMessageContent]
  split
  next messages hmessages =>
    obtain rfl : [message] = messages := Option.some.inj (h.symm.trans hmessages)
    rfl
  next hnone => cases h.symm.trans hnone

theorem queueMessageContent_unwrapped (h : wrapped fields = none) :
    queueMessageContent canon (.obj fields) = messageContent canon fields CONTENT_KEYS := by
  rw [queueMessageContent]
  split
  next messages hmessages => cases h.symm.trans hmessages
  next => rfl

/-- The content that a message carries is taken from it. -/
theorem Carries.queueMessageContent {payload : Json} (h : Carries canon content payload) :
    queueMessageContent canon payload = .ok content := by
  induction h with
  | bare hwrapped h =>
      rw [queueMessageContent_unwrapped hwrapped, ← List.append_nil CONTENT_KEYS,
        messageContent_append h]
      rfl
  | text hwrapped hkeys h hkey htext =>
      rw [queueMessageContent_unwrapped hwrapped, hkeys, messageContent_append h, messageContent,
        hkey]
      simp only [jsonLoads, htext]
  | object hwrapped hkeys h hkey =>
      rw [queueMessageContent_unwrapped hwrapped, hkeys, messageContent_append h, messageContent,
        hkey]
  | list _ ih => rw [queueMessageContent_list, ih]
  | messages hwrapped _ ih => rw [queueMessageContent_wrapped hwrapped, ih]

/-- What is taken from a message that is not wrapped is carried by it. -/
theorem carries_of_messageContent (hwrapped : wrapped fields = none) {before after : List String}
    (hkeys : CONTENT_KEYS = before ++ after) (hbefore : ∀ k ∈ before, NoContent fields k)
    (h : messageContent canon fields after = .ok content) :
    Carries canon content (.obj fields) := by
  induction after generalizing before with
  | nil =>
      obtain rfl := Except.ok.inj h
      rw [List.append_nil] at hkeys
      exact .bare hwrapped (hkeys ▸ hbefore)
  | cons key after ih =>
      have hskip : NoContent fields key → Carries canon content (.obj fields) := by
        intro hkey
        rw [messageContent_cons hkey] at h
        have hsplit : CONTENT_KEYS = (before ++ [key]) ++ after := by
          rw [hkeys, List.append_assoc]
          rfl
        refine ih hsplit (fun k hk => ?_) h
        rcases List.mem_append.1 hk with hk | hk
        · exact hbefore k hk
        · rw [List.mem_singleton.1 hk]
          exact hkey
      cases hv : fields.lookup key with
      | none => exact hskip fun v hsome => by cases hv.symm.trans hsome
      | some v =>
          cases v with
          | str text =>
              simp only [messageContent, hv, jsonLoads] at h
              cases htext : loads canon text with
              | none =>
                  rw [htext] at h
                  cases h
              | some decoded =>
                  rw [htext] at h
                  cases decoded with
                  | obj entries =>
                      obtain rfl := Except.ok.inj h
                      exact .text hwrapped hkeys hbefore hv htext
                  | null | bool | int | float | str | arr => cases h
          | obj entries =>
              simp only [messageContent, hv] at h
              obtain rfl := Except.ok.inj h
              exact .object hwrapped hkeys hbefore hv
          | null | bool | int | float | arr =>
              refine hskip fun v hsome => ?_
              obtain rfl := Option.some.inj (hv.symm.trans hsome)
              constructor <;> simp [Json.typeName]

/-- A content is taken only from a message that carries it. -/
theorem carries_of_queueMessageContent {payload : Json}
    (h : OciFunctionEntry.queueMessageContent canon payload = .ok content) :
    Carries canon content payload := by
  fun_induction OciFunctionEntry.queueMessageContent canon payload with
  | case1 messages message hmessage ih =>
      rw [singleMessage_eq_ok hmessage]
      exact .list (ih h)
  | case2 => cases h
  | case3 fields messages hwrapped message hmessage ih =>
      rw [singleMessage_eq_ok hmessage] at hwrapped
      exact .messages hwrapped (ih h)
  | case4 => cases h
  | case5 fields hwrapped =>
      exact carries_of_messageContent hwrapped (List.nil_append _).symm (List.forall_mem_nil _) h
  | case6 => cases h

end Carries

end OciFunctionEntry

end PrismAgent
