import FirmwareDownload.Image
import FirmwareDownload.Status

/-! Which image a write without data of its own takes. -/

namespace FirmwareDownload

/-- A loop failure is mended by the platform image, a rejected signature by the
one with the production key; every other write takes the primary image. -/
def ImageKind.select (recovery : Bool) (lastStatus : Option Status) : ImageKind :=
  match recovery, lastStatus with
  | true, some .pllError => .platformRecovery
  | true, some .signatureError => .productionKey
  | _, _ => .primary

end FirmwareDownload
