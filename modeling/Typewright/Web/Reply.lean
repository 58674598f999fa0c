import Typewright.Json.Parser
import Typewright.Text.Case

/-!
# Replies

What comes back when an address is asked: a reply with a status, or a fault on the way. What a reply
says is found out by a client, which is not part of the program and so is a parameter of it.

- `Client`: what a client makes of replies.
- `Client.Documented`: what is known of it.
- `Client.standard`: a client of which that is true.
-/

namespace Typewright.Web

structure Reply where
  status : Int
  headers : List (String × String)
  body : String

/-- The status of a reply is that of an error of the client or of the server. -/
def Reply.HasErrorStatus (r : Reply) : Prop :=
  400 ≤ r.status ∧ r.status < 600

instance (r : Reply) : Decidable r.HasErrorStatus :=
  inferInstanceAs (Decidable (_ ∧ _))

/-- Why there is no reply. -/
inductive TransportFault where
  | timeout
  | connection (text : String)
  /-- A status is refused; the reply that has it may come along. -/
  | refusal (reply? : Option Reply)
  | request (text : String)
  | value (text : String)

/-- Why a reply gives no document. -/
inductive BodyFault where
  /-- The body is no document, which counts as a fault of the request. -/
  | request (text : String)
  /-- The body holds a value that cannot be had. -/
  | value (text : String)
  /-- The body holds more arrays and objects in one another than can be followed. -/
  | tooDeep

/-- What a client makes of replies. -/
structure Client where
  /-- Whether the client refuses the status of a reply. -/
  isError : Reply → Bool
  /-- The value of a header, whose name may be in any letter case. -/
  header? : Reply → String → Option String
  document : Reply → Except BodyFault Json

/--
What is known of a client, if it can follow `depth` arrays and objects in one another: it refuses
the statuses of errors, and no others; the document of a reply is the value of its body.
-/
structure Client.Documented (c : Client) (depth : Nat) : Prop where
  isError_iff : ∀ r, c.isError r ↔ r.HasErrorStatus
  document_ok_iff : ∀ r j, c.document r = .ok j ↔ Json.parse depth r.body = .ok j
  document_tooDeep_iff : ∀ r, c.document r = .error .tooDeep ↔
    Json.parse depth r.body = .error .tooDeep

def BodyFault.ofReadError : Json.ReadError → BodyFault
  | .integerTooLong digits => .value (Json.ReadError.integerTooLong digits).message
  | .tooDeep => .tooDeep
  | e => .request e.message

/-- A client that reads replies itself. Of headers with one name the last one given counts. -/
def Client.standard (depth : Nat) : Client where
  isError r := r.HasErrorStatus
  header? r name := (r.headers.reverse.find? fun h => Text.lower h.1 == Text.lower name).map (·.2)
  document r := (Json.parse depth r.body).mapError .ofReadError

theorem Client.documented_standard (depth : Nat) : (standard depth).Documented depth where
  isError_iff r := decide_eq_true_iff
  document_ok_iff r j := by
    dsimp only [standard]
    cases Json.parse depth r.body with
    | ok j' =>
      constructor <;> intro h <;> cases h <;> rfl
    | error e =>
      constructor <;> intro h <;> cases h
  document_tooDeep_iff r := by
    dsimp only [standard]
    cases Json.parse depth r.body with
    | ok j => constructor <;> intro h <;> cases h
    | error e =>
      constructor
      · intro h
        have h := Except.error.inj h
        cases e <;> cases h
        rfl
      · intro h
        cases h
        rfl

/-- An address that was asked, and for how long. -/
structure Request where
  url : String
  timeout : Json

end Typewright.Web
