import SalesQuery.Network.IpAddress
import SalesQuery.Text.Integer

/-!
# Connection options

A connection to the database has named options. Each name admits values of one kind; the kind of
most options is any text.
-/

namespace SalesQuery

/-- The values that an option admits. -/
inductive OptionKind where
  /-- Any text. -/
  | text
  /-- One of some words. -/
  | oneOf (words : List String)
  /-- An integer of 64 bits. -/
  | int64
  /-- A number of so many bits. -/
  | unsigned (bits : Nat)
  /-- IP addresses, separated by commas. -/
  | addresses
  /-- Ports, separated by commas; an empty one stands for the usual port. -/
  | ports
deriving DecidableEq, Repr

/-- Whether a text is a port or empty. -/
def isPort (l : List Char) : Bool := l.isEmpty || (Text.unsignedOf? 16 l).isSome

/-- Whether the kind admits a value. -/
def OptionKind.admits (value : List Char) : OptionKind → Bool
  | .text => true
  | .oneOf words => words.any fun word => word.toList = value
  | .int64 => (Text.int64? value).isSome
  | .unsigned bits => (Text.unsignedOf? bits value).isSome
  | .addresses => (Text.splitChars ',' value).all fun l => (IpAddress.ofText? l).isSome
  | .ports => (Text.splitChars ',' value).all isPort

/-- The options by name. -/
def connectionOptions : List (String × OptionKind) :=
  [("user", .text), ("password", .text), ("dbname", .text), ("options", .text),
    ("application_name", .text), ("sslmode", .oneOf ["disable", "prefer", "require"]),
    ("sslnegotiation", .oneOf ["postgres", "direct"]), ("host", .text), ("hostaddr", .addresses),
    ("port", .ports), ("connect_timeout", .int64), ("tcp_user_timeout", .int64),
    ("keepalives", .unsigned 64), ("keepalives_idle", .int64), ("keepalives_interval", .int64),
    ("keepalives_retries", .unsigned 32),
    ("target_session_attrs", .oneOf ["any", "read-write", "read-only"]),
    ("channel_binding", .oneOf ["disable", "prefer", "require"]),
    ("load_balance_hosts", .oneOf ["disable", "random"])]

/-- Whether there is an option of the name that admits the value. -/
def isConnectionOption (name : String) (value : List Char) : Bool :=
  match connectionOptions.lookup name with
  | some kind => kind.admits value
  | none => false

end SalesQuery
