import Libusbgx.Configfs.Parsed
import Libusbgx.Base.Matched
import Libusbgx.Base.Run
import Libusbgx.MassStorage.GetAttrs
import Libusbgx.MassStorage.Index
import Libusbgx.MassStorage.Mirror
import Libusbgx.MassStorage.Scheme
import Libusbgx.Removal.AllOrNothing
import Libusbgx.OsDesc.Import
import Libusbgx.OsDesc.Runs
import Libusbgx.GadgetStrings
import Libusbgx.Import.Atomic
import Libusbgx.Import.ConfigAttrs
import Libusbgx.Import.Records
import Libusbgx.Insertion
import Libusbgx.Labels
import Libusbgx.Languages
import Libusbgx.Udc.Runs
import Libusbgx.Configfs.WellFormed
import Libusbgx.Undo.Constructors
import Libusbgx.Undo.Handles
import Libusbgx.Configfs.Made
import Libusbgx.Attributes.Buffer
import Libusbgx.Attributes.Codec
import Libusbgx.Attributes.Integer
import Libusbgx.Attributes.Report
import Libusbgx.Attributes.Returns
import Libusbgx.Attributes.RoundTrip
import Libusbgx.Attributes.Net
import Libusbgx.Attributes.Uac2
import Libusbgx.Video.Import
import Libusbgx.Video.Export
import Libusbgx.Video.Config
import Libusbgx.Video.Guid
import Libusbgx.Video.Indices
import Libusbgx.Video.SetAttrs
import Libusbgx.Mirror.Emptied
import Libusbgx.Mirror.Undone
