import FirmwareDownload.Bytes

/-! The system clock of the controller, as the force command carries it. -/

namespace FirmwareDownload

/-- Input frequencies of the phase-locked loop. -/
inductive ClockFrequency
  | mhz13
  | mhz19_2
  | mhz24
  | mhz26
  | mhz38_4
  | mhz52
  deriving DecidableEq, Repr

instance : Inhabited ClockFrequency := ⟨.mhz19_2⟩

def ClockFrequency.code : ClockFrequency → UInt8
  | mhz13 => 0
  | mhz19_2 => 1
  | mhz24 => 2
  | mhz26 => 3
  | mhz38_4 => 4
  | mhz52 => 5

inductive ClockSource
  | crystal
  | pll (frequency : ClockFrequency)
  | pad
  deriving DecidableEq, Repr

namespace ClockSource

def code : ClockSource → UInt8
  | crystal => 1
  | pll _ => 2
  | pad => 3

def frequencyCode : ClockSource → UInt8
  | pll f => f.code
  | _ => 0

/-- The source above three bits of frequency, which only the loop has. -/
def encode (c : ClockSource) : UInt8 := c.code <<< 3 ||| c.frequencyCode

end ClockSource

/-- The three bytes of a force command; without a clock the loop runs at 19.2 MHz. -/
def clockBytes : Option ClockSource → UInt8 × UInt8 × UInt8
  | some c => (c.encode, 0, 0)
  | none => (0x11, 0, 0)

end FirmwareDownload
