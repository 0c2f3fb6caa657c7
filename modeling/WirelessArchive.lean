import WirelessArchive.Archive.Decode
import WirelessArchive.Archive.Encode
import WirelessArchive.Json.Typed
import WirelessArchive.Profile.ConfigKey
import WirelessArchive.Settings.Store
import WirelessArchive.Proofs.Address.Link
import WirelessArchive.Proofs.Archive.WellFormed
import WirelessArchive.Proofs.Archive.Accounting
import WirelessArchive.Proofs.Archive.Ending
import WirelessArchive.Proofs.Archive.Stability
import WirelessArchive.Proofs.Json.Agreement
import WirelessArchive.Proofs.Record.Extension
import WirelessArchive.Proofs.Archive.Extension
import WirelessArchive.Proofs.Archive.Omission
import WirelessArchive.Proofs.Archive.Secrecy
import WirelessArchive.Proofs.Archive.Forms
import WirelessArchive.Proofs.Archive.Matching
import WirelessArchive.Proofs.Record.Grammar
import WirelessArchive.Proofs.Archive.Validity
import WirelessArchive.Proofs.Archive.Version
import WirelessArchive.Proofs.Settings.Saving
import WirelessArchive.Proofs.Profile.ConfigKey
import WirelessArchive.Proofs.Archive.Arrangement
import WirelessArchive.Proofs.Settings.Reloading
import WirelessArchive.Proofs.Archive.Mistyping
