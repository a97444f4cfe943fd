import BackupCli.Codec.Bytes
import BackupCli.Codec.Memcomparable
import BackupCli.Codec.KeySuffix
import BackupCli.Codec.InPlace
import BackupCli.Duplicate.Remote
import BackupCli.Duplicate.Store
import BackupCli.Duplicate.Send
import BackupCli.Duplicate.Table
import BackupCli.Duplicate.Ranges
import BackupCli.Restore.Sender
import BackupCli.Restore.Pipeline
import BackupCli.Restore.Context
import BackupCli.Restore.Client
import BackupCli.Restore.Util
import BackupCli.Restore.Tables
import BackupCli.Conn.Mgr
import BackupCli.Conn.Stores
import BackupCli.Utils.Retry
import BackupCli.Backup.SafePoint
